import CanonicalMarkdown.DispatchTable
import Mathlib.Data.List.Induction

namespace CanonicalMarkdown

def Provider.registers (provider : Provider) (kind : Kind) : Bool :=
  provider.rules.any (·.1 = kind)

/-- The last rule that the provider registers for the kind. -/
def Provider.rule? (provider : Provider) (kind : Kind) : Option Rule :=
  (provider.rules.filter (·.1 = kind)).getLast?.map (·.2)

/-- At least two of the providers share the priority, the least among those that register the
    kind. -/
def TiedAt (providers : List Provider) (kind : Kind) (priority : Int) : Prop :=
  (∀ provider ∈ providers, provider.registers kind = true → priority ≤ provider.priority) ∧
    2 ≤ providers.countP fun provider => provider.registers kind && provider.priority = priority

/-- The error names a tie, and no tie is at a lesser priority. -/
def LeastTie (providers : List Provider) (error : RenderError) : Prop :=
  ∃ kind priority, error = .ambiguousRegistration kind priority ∧
    TiedAt providers kind priority ∧
    ∀ other least, TiedAt providers other least → priority ≤ least

/-- The leader registers the kind, and every other provider that does has a greater priority. -/
def Leads (providers : List Provider) (kind : Kind) (leader : Provider) : Prop :=
  leader.registers kind = true ∧ ∃ others, providers.Perm (leader :: others) ∧
    ∀ other ∈ others, other.registers kind = true → leader.priority < other.priority

def Settled (providers : List Provider) (table : DispatchTable) : Prop :=
  ∀ kind, ((∀ provider ∈ providers, provider.registers kind = false) ∧ table kind = none) ∨
    ∃ leader, Leads providers kind leader ∧ table kind = leader.rule? kind

namespace Provider

variable {provider : Provider} {kind : Kind}

theorem registers_iff :
    provider.registers kind = true ↔ ∃ entry ∈ provider.rules, entry.1 = kind := by
  simp [registers]

theorem rule?_eq_none : provider.rule? kind = none ↔ provider.registers kind = false := by
  simp [rule?, registers]

theorem registers_of_rule? {rule : Rule} (last : provider.rule? kind = some rule) :
    provider.registers kind = true := by
  rw [← Bool.not_eq_false, ← rule?_eq_none, last]
  simp

theorem rule?_concat (priority : Int) (rules : List (Kind × Rule)) (entry : Kind × Rule) :
    rule? ⟨priority, rules ++ [entry]⟩ kind =
      if entry.1 = kind then some entry.2 else rule? ⟨priority, rules⟩ kind := by
  by_cases same : entry.1 = kind <;> simp [rule?, List.filter_append, same]

end Provider

theorem TiedAt.perm {left right : List Provider} (same : left.Perm right) {kind : Kind}
    {priority : Int} : TiedAt left kind priority ↔ TiedAt right kind priority := by
  unfold TiedAt
  rw [same.countP_eq]
  simp only [same.mem_iff]

theorem TiedAt.exists_mem {providers : List Provider} {kind : Kind} {priority : Int}
    (tied : TiedAt providers kind priority) :
    ∃ provider ∈ providers, provider.registers kind = true ∧ provider.priority = priority := by
  have some := List.countP_pos_iff.mp (Nat.lt_of_lt_of_le Nat.two_pos tied.2)
  simpa using some

theorem LeastTie.perm {left right : List Provider} (same : left.Perm right) {error : RenderError} :
    LeastTie left error ↔ LeastTie right error := by
  simp only [LeastTie, TiedAt.perm same]

theorem Leads.mem {providers : List Provider} {kind : Kind} {leader : Provider}
    (leads : Leads providers kind leader) : leader ∈ providers := by
  obtain ⟨_, others, split, _⟩ := leads
  exact split.mem_iff.mpr (by simp)

theorem Leads.perm {left right : List Provider} (same : left.Perm right) {kind : Kind}
    {leader : Provider} (leads : Leads left kind leader) : Leads right kind leader := by
  obtain ⟨registers, others, split, above⟩ := leads
  exact ⟨registers, others, same.symm.trans split, above⟩

theorem Leads.eq_or_lt {providers : List Provider} {kind : Kind} {leader other : Provider}
    (leads : Leads providers kind leader) (member : other ∈ providers)
    (registers : other.registers kind = true) :
    other = leader ∨ leader.priority < other.priority := by
  obtain ⟨_, others, split, above⟩ := leads
  rcases List.mem_cons.mp (split.mem_iff.mp member) with same | among
  · exact .inl same
  · exact .inr (above other among registers)

theorem Leads.eq {providers : List Provider} {kind : Kind} {left right : Provider}
    (first : Leads providers kind left) (second : Leads providers kind right) : left = right := by
  rcases first.eq_or_lt second.mem second.1 with same | above
  · exact same.symm
  · rcases second.eq_or_lt first.mem first.1 with same | below
    · exact same
    · omega

theorem Settled.perm {left right : List Provider} (same : left.Perm right) {table : DispatchTable}
    (settled : Settled left table) : Settled right table := by
  intro kind
  rcases settled kind with ⟨unregistered, empty⟩ | ⟨leader, leads, rule⟩
  · exact .inl ⟨fun provider member => unregistered provider (same.mem_iff.mpr member), empty⟩
  · exact .inr ⟨leader, leads.perm same, rule⟩

theorem Settled.eq {providers : List Provider} {table other : DispatchTable}
    (first : Settled providers table) (second : Settled providers other) : table = other := by
  funext kind
  rcases first kind with ⟨unregistered, empty⟩ | ⟨leader, leads, rule⟩ <;>
    rcases second kind with ⟨otherUnregistered, otherEmpty⟩ | ⟨otherLeader, otherLeads, otherRule⟩
  · rw [empty, otherEmpty]
  · exact absurd otherLeads.1 (by simp [unregistered otherLeader otherLeads.mem])
  · exact absurd leads.1 (by simp [otherUnregistered leader leads.mem])
  · rw [rule, otherRule, leads.eq otherLeads]

namespace Contest

def tie? (contest : Contest) (provider : Provider) : Option RenderError :=
  (provider.rules.find? fun entry =>
    (contest.holders entry.1).any (·.priority = provider.priority)).map fun entry =>
      .ambiguousRegistration entry.1 provider.priority

theorem enterAll_concat (contest : Contest) (priority : Int) (rules : List (Kind × Rule))
    (entry : Kind × Rule) (number : Nat) :
    contest.enterAll ⟨priority, rules ++ [entry]⟩ number =
      (contest.enterAll ⟨priority, rules⟩ number).enter entry.1 ⟨entry.2, priority, number⟩ := by
  simp [enterAll, List.foldl_append]

theorem tie?_concat (contest : Contest) (priority : Int) (rules : List (Kind × Rule))
    (entry : Kind × Rule) :
    contest.tie? ⟨priority, rules ++ [entry]⟩ = (contest.tie? ⟨priority, rules⟩).or
      (if (contest.holders entry.1).any (·.priority = priority) then
        some (.ambiguousRegistration entry.1 priority) else none) := by
  rw [tie?, List.find?_append, Option.map_or]
  congr 1
  by_cases met : (contest.holders entry.1).any (·.priority = priority) = true <;> simp [met]

theorem enter_held {contest : Contest} {kind : Kind} {holder incoming : Holder}
    (held : contest.holders kind = some holder) (earlier : holder.provider ≠ incoming.provider)
    (ranked : holder.priority ≤ incoming.priority) :
    contest.enter kind incoming =
      if holder.priority = incoming.priority then
        contest.report (.ambiguousRegistration kind incoming.priority)
      else contest := by
  unfold enter
  simp only [held, ne_eq, earlier, not_false_eq_true, and_true]
  split
  · rfl
  · rename_i different
    rw [if_pos (by omega)]

theorem enter_own {contest : Contest} {kind : Kind} {incoming : Holder}
    (own : ∀ holder, contest.holders kind = some holder →
      holder.provider = incoming.provider ∧ holder.priority = incoming.priority) :
    contest.enter kind incoming = contest.assign kind incoming := by
  unfold enter
  split
  · rfl
  · rename_i holder held
    obtain ⟨provider, priority⟩ := own holder held
    simp [provider, priority]

theorem enterAll_spec {contest : Contest} {provider : Provider} {number : Nat}
    (before : ∀ kind holder, contest.holders kind = some holder →
      holder.priority ≤ provider.priority ∧ holder.provider ≠ number) :
    (∀ kind, (contest.enterAll provider number).holders kind =
      (contest.holders kind).or ((provider.rule? kind).map (⟨·, provider.priority, number⟩))) ∧
    (contest.enterAll provider number).conflict = contest.conflict.or (contest.tie? provider) := by
  obtain ⟨priority, rules⟩ := provider
  induction rules using List.reverseRecOn with
  | nil => simp [enterAll, Provider.rule?, tie?]
  | append_singleton rules entry ih =>
    obtain ⟨holders, conflict⟩ := ih before
    rw [enterAll_concat]
    generalize contest.enterAll ⟨priority, rules⟩ number = entered at holders conflict ⊢
    cases held : contest.holders entry.1 with
    | some holder =>
      obtain ⟨ranked, earlier⟩ := before entry.1 holder held
      have same : entered.holders entry.1 = some holder := by rw [holders, held]; rfl
      rw [enter_held same earlier ranked, tie?_concat, ← Option.or_assoc, ← conflict, held]
      constructor
      · intro kind
        have kept : (if holder.priority = priority then
            entered.report (.ambiguousRegistration entry.1 priority) else entered).holders kind =
            entered.holders kind := by split <;> rfl
        rw [kept, holders]
        by_cases now : entry.1 = kind
        · rw [← now, held]
          rfl
        · rw [Provider.rule?_concat, if_neg now]
      · by_cases tied : holder.priority = priority <;> simp [report, tied]
    | none =>
      have own : ∀ holder, entered.holders entry.1 = some holder →
          holder.provider = number ∧ holder.priority = priority := by
        intro holder found
        rw [holders, held, Option.none_or, Option.map_eq_some_iff] at found
        obtain ⟨rule, _, rfl⟩ := found
        exact ⟨rfl, rfl⟩
      rw [enter_own own, tie?_concat, held]
      constructor
      · intro kind
        by_cases now : entry.1 = kind
        · simp [assign, Provider.rule?_concat, ← now, held]
        · simp [assign, Provider.rule?_concat, now, Ne.symm now, holders]
      · simpa [assign] using conflict

end Contest

def holderAfter (ranked : List Provider) (kind : Kind) : Option Holder :=
  ranked.zipIdx.findSome? fun entry =>
    (entry.1.rule? kind).map (⟨·, entry.1.priority, entry.2⟩)

theorem holderAfter_concat (ranked : List Provider) (provider : Provider) (kind : Kind) :
    holderAfter (ranked ++ [provider]) kind = (holderAfter ranked kind).or
      ((provider.rule? kind).map (⟨·, provider.priority, ranked.length⟩)) := by
  simp [holderAfter, List.zipIdx_append, List.findSome?_append]

abbrev Ranked (providers : List Provider) : Prop :=
  providers.Pairwise fun left right => left.priority ≤ right.priority

theorem holderAfter_eq_none {ranked : List Provider} {kind : Kind}
    (unheld : holderAfter ranked kind = none) :
    ∀ provider ∈ ranked, provider.registers kind = false := by
  induction ranked using List.reverseRecOn with
  | nil => simp
  | append_singleton ranked last ih =>
    rw [holderAfter_concat, Option.or_eq_none_iff, Option.map_eq_none_iff,
      Provider.rule?_eq_none] at unheld
    intro provider member
    rcases List.mem_append.mp member with member | member
    · exact ih unheld.1 provider member
    · rw [List.mem_singleton.mp member]
      exact unheld.2

theorem holderAfter_eq_some {ranked : List Provider} {kind : Kind} {holder : Holder}
    (held : holderAfter ranked kind = some holder) :
    ∃ before leader after rule, ranked = before ++ leader :: after ∧
      (∀ provider ∈ before, provider.registers kind = false) ∧
      leader.rule? kind = some rule ∧ holder = ⟨rule, leader.priority, before.length⟩ := by
  induction ranked using List.reverseRecOn with
  | nil => simp [holderAfter] at held
  | append_singleton ranked last ih =>
    rw [holderAfter_concat] at held
    cases earlier : holderAfter ranked kind with
    | some first =>
      rw [earlier] at held
      obtain rfl := Option.some.inj held
      obtain ⟨before, leader, after, rule, rfl, rest⟩ := ih earlier
      exact ⟨before, leader, after ++ [last], rule, by simp, rest⟩
    | none =>
      rw [earlier, Option.none_or, Option.map_eq_some_iff] at held
      obtain ⟨rule, registered, rfl⟩ := held
      exact ⟨ranked, last, [], rule, rfl, holderAfter_eq_none earlier, registered, rfl⟩

section Ranked

variable {ranked : List Provider} {kind : Kind}

theorem le_of_holderAfter (sorted : Ranked ranked) {holder : Holder}
    (held : holderAfter ranked kind = some holder) {provider : Provider}
    (member : provider ∈ ranked) (registers : provider.registers kind = true) :
    holder.priority ≤ provider.priority := by
  obtain ⟨before, leader, after, rule, rfl, unregistered, _, rfl⟩ := holderAfter_eq_some held
  rcases List.mem_append.mp member with earlier | later
  · rw [unregistered provider earlier] at registers
    contradiction
  · rcases List.mem_cons.mp later with rfl | later
    · exact Int.le_refl _
    · exact (List.pairwise_cons.mp (List.pairwise_append.mp sorted).2.1).1 provider later

theorem exists_mem_of_holderAfter {holder : Holder}
    (held : holderAfter ranked kind = some holder) :
    ∃ provider ∈ ranked, provider.registers kind = true ∧ provider.priority = holder.priority := by
  obtain ⟨before, leader, after, rule, rfl, _, registered, rfl⟩ := holderAfter_eq_some held
  exact ⟨leader, by simp, Provider.registers_of_rule? registered, rfl⟩

theorem tiedAt_concat {provider : Provider} (sorted : Ranked ranked)
    (last : ∀ other ∈ ranked, other.priority ≤ provider.priority) {priority : Int} :
    TiedAt (ranked ++ [provider]) kind priority ↔ TiedAt ranked kind priority ∨
      priority = provider.priority ∧ provider.registers kind = true ∧
        ∃ holder, holderAfter ranked kind = some holder ∧ holder.priority = provider.priority := by
  unfold TiedAt
  simp only [List.countP_append, List.countP_singleton]
  constructor
  · rintro ⟨least, two⟩
    have leastBefore : ∀ other ∈ ranked, other.registers kind = true → priority ≤ other.priority :=
      fun other member => least other (by simp [member])
    -- the last provider counts towards the tie only with a rule for the kind at that priority
    by_cases own : (provider.registers kind && provider.priority = priority) = true
    · rw [if_pos own] at two
      simp only [Bool.and_eq_true, decide_eq_true_eq] at own
      obtain ⟨registers, rfl⟩ := own
      obtain ⟨rival, member, met⟩ := List.countP_pos_iff.mp (Nat.le_of_succ_le_succ two)
      simp only [Bool.and_eq_true, decide_eq_true_eq] at met
      cases held : holderAfter ranked kind with
      | none =>
        rw [holderAfter_eq_none held rival member] at met
        exact absurd met.1 (by simp)
      | some holder =>
        obtain ⟨leader, among, leads, same⟩ := exists_mem_of_holderAfter held
        have := leastBefore leader among leads
        have := le_of_holderAfter sorted held member met.1
        exact .inr ⟨rfl, registers, holder, rfl, by omega⟩
    · rw [if_neg own] at two
      exact .inl ⟨leastBefore, two⟩
  · rintro (tied | ⟨rfl, registers, holder, held, same⟩)
    · obtain ⟨other, member, _, rfl⟩ := TiedAt.exists_mem tied
      refine ⟨?_, Nat.le_add_right_of_le tied.2⟩
      intro another among registers
      rcases List.mem_append.mp among with among | among
      · exact tied.1 another among registers
      · rw [List.mem_singleton.mp among]
        exact last other member
    · obtain ⟨leader, among, leads, equal⟩ := exists_mem_of_holderAfter held
      have counted : 0 < ranked.countP fun other =>
          other.registers kind && other.priority = provider.priority :=
        List.countP_pos_iff.mpr ⟨leader, among, by simp [leads, equal, same]⟩
      constructor
      · intro another among registers
        rcases List.mem_append.mp among with among | among
        · have := le_of_holderAfter sorted held among registers
          omega
        · exact Int.le_of_eq (congrArg Provider.priority (List.mem_singleton.mp among)).symm
      · rw [if_pos (by simp [registers])]
        omega

theorem leads_of_holderAfter (sorted : Ranked ranked) {holder : Holder}
    (held : holderAfter ranked kind = some holder)
    (untied : ¬TiedAt ranked kind holder.priority) :
    ∃ leader, Leads ranked kind leader ∧ leader.rule? kind = some holder.rule := by
  have least := fun provider member =>
    @le_of_holderAfter ranked kind sorted holder held provider member
  obtain ⟨before, leader, after, rule, rfl, unregistered, registered, rfl⟩ :=
    holderAfter_eq_some held
  have leads := Provider.registers_of_rule? registered
  refine ⟨leader, ⟨leads, before ++ after, List.perm_middle, ?_⟩, registered⟩
  intro other member registers
  have among : other ∈ before ++ leader :: after := List.perm_middle.mem_iff.mpr (by simp [member])
  have different : leader.priority ≠ other.priority := by
    intro same
    have counted : 0 < (before ++ after).countP fun other =>
        other.registers kind && other.priority = leader.priority :=
      List.countP_pos_iff.mpr ⟨other, member, by simp [registers, same]⟩
    refine untied ⟨least, ?_⟩
    rw [List.perm_middle.countP_eq, List.countP_cons, if_pos (by simp [leads])]
    exact Nat.succ_le_succ counted
  exact Int.lt_iff_le_and_ne.mpr ⟨least other among registers, different⟩

end Ranked

structure Contest.Resolved (ranked : List Provider) (contest : Contest) : Prop where
  holders : ∀ kind, contest.holders kind = holderAfter ranked kind
  untied : contest.conflict = none → ∀ kind priority, ¬TiedAt ranked kind priority
  tied : ∀ error, contest.conflict = some error → LeastTie ranked error

namespace Contest

variable {ranked : List Provider} {contest : Contest} {provider : Provider}

theorem tie?_eq_none (resolved : contest.Resolved ranked) (free : contest.tie? provider = none)
    {kind : Kind} (registers : provider.registers kind = true) {holder : Holder}
    (held : holderAfter ranked kind = some holder) : holder.priority ≠ provider.priority := by
  obtain ⟨entry, member, rfl⟩ := Provider.registers_iff.mp registers
  rw [tie?, Option.map_eq_none_iff, List.find?_eq_none] at free
  simpa [resolved.holders, held] using free entry member

theorem tie?_eq_some (resolved : contest.Resolved ranked) {error : RenderError}
    (met : contest.tie? provider = some error) :
    ∃ kind holder, error = .ambiguousRegistration kind provider.priority ∧
      provider.registers kind = true ∧ holderAfter ranked kind = some holder ∧
      holder.priority = provider.priority := by
  rw [tie?, Option.map_eq_some_iff] at met
  obtain ⟨entry, found, rfl⟩ := met
  have member := List.mem_of_find?_eq_some found
  have holds := List.find?_some found
  rw [resolved.holders, Option.any_eq_true] at holds
  obtain ⟨holder, held, same⟩ := holds
  exact ⟨entry.1, holder, rfl, Provider.registers_iff.mpr ⟨entry, member, rfl⟩, held,
    of_decide_eq_true same⟩

theorem Resolved.enterAll (resolved : contest.Resolved ranked) (sorted : Ranked ranked)
    (last : ∀ other ∈ ranked, other.priority ≤ provider.priority) :
    (contest.enterAll provider ranked.length).Resolved (ranked ++ [provider]) := by
  have before : ∀ kind holder, contest.holders kind = some holder →
      holder.priority ≤ provider.priority ∧ holder.provider ≠ ranked.length := by
    intro kind holder held
    rw [resolved.holders] at held
    obtain ⟨leader, among, _, same⟩ := exists_mem_of_holderAfter held
    obtain ⟨front, _, _, _, split, _, _, rfl⟩ := holderAfter_eq_some held
    refine ⟨same ▸ last leader among, ?_⟩
    simp [split]
  obtain ⟨holders, conflict⟩ := enterAll_spec before
  have later : ∀ {kind priority}, TiedAt ranked kind priority → priority ≤ provider.priority := by
    intro kind priority tied
    obtain ⟨other, among, _, rfl⟩ := tied.exists_mem
    exact last other among
  refine ⟨?_, ?_, ?_⟩
  · intro kind
    rw [holders, resolved.holders, holderAfter_concat]
  · intro none kind priority
    rw [conflict, Option.or_eq_none_iff] at none
    rw [tiedAt_concat sorted last]
    rintro (tied | ⟨rfl, registers, holder, held, same⟩)
    · exact resolved.untied none.1 kind priority tied
    · exact tie?_eq_none resolved none.2 registers held same
  · intro error reported
    rw [conflict] at reported
    cases earlier : contest.conflict with
    | some first =>
      rw [earlier] at reported
      obtain rfl := Option.some.inj reported
      obtain ⟨kind, priority, named, tied, least⟩ := resolved.tied first earlier
      refine ⟨kind, priority, named, (tiedAt_concat sorted last).mpr (.inl tied), ?_⟩
      intro other lower otherTied
      rcases (tiedAt_concat sorted last).mp otherTied with otherTied | ⟨rfl, _⟩
      · exact least other lower otherTied
      · exact later tied
    | none =>
      rw [earlier, Option.none_or] at reported
      obtain ⟨kind, holder, named, registers, held, same⟩ := tie?_eq_some resolved reported
      refine ⟨kind, provider.priority, named,
        (tiedAt_concat sorted last).mpr (.inr ⟨rfl, registers, holder, held, same⟩), ?_⟩
      intro other lower otherTied
      rcases (tiedAt_concat sorted last).mp otherTied with otherTied | ⟨rfl, _⟩
      · exact absurd otherTied (resolved.untied earlier other lower)
      · exact Int.le_refl _

theorem resolved_foldl (sorted : Ranked ranked) :
    (ranked.zipIdx.foldl (fun contest entry => contest.enterAll entry.1 entry.2)
      ({} : Contest)).Resolved ranked := by
  induction ranked using List.reverseRecOn with
  | nil => exact ⟨fun _ => rfl, fun _ _ _ tied => by simp [TiedAt] at tied, by simp⟩
  | append_singleton ranked provider ih =>
    obtain ⟨sortedBefore, _, last⟩ := List.pairwise_append.mp sorted
    have entered := (ih sortedBefore).enterAll sortedBefore fun other member =>
      last other member provider (by simp)
    simpa [List.zipIdx_append] using entered

end Contest

theorem exists_ranked (providers : List Provider) : ∃ ranked, ranked.Perm providers ∧
    Ranked ranked ∧ (Contest.ofProviders providers).Resolved ranked := by
  let ranked := providers.mergeSort fun left right => left.priority ≤ right.priority
  have sorted : Ranked ranked := by
    have pairwise : ranked.Pairwise fun left right =>
        decide (left.priority ≤ right.priority) = true := by
      apply List.pairwise_mergeSort
      · intro first second third
        simpa using Int.le_trans
      · intro left right
        simpa using Int.le_total left.priority right.priority
    exact pairwise.imp fun le => of_decide_eq_true le
  exact ⟨ranked, List.mergeSort_perm _ _, sorted, Contest.resolved_foldl sorted⟩

namespace DispatchTable

theorem leastTie_of_error {providers : List Provider} {error : RenderError}
    (failed : ofProviders providers = .error error) : LeastTie providers error := by
  obtain ⟨ranked, same, _, resolved⟩ := exists_ranked providers
  unfold ofProviders at failed
  dsimp only at failed
  split at failed
  · rename_i conflict reported
    obtain rfl := Except.error.inj failed
    exact (LeastTie.perm same).mp (resolved.tied conflict reported)
  · contradiction

theorem settled_of_ok {providers : List Provider} {table : DispatchTable}
    (built : ofProviders providers = .ok table) :
    (∀ kind priority, ¬TiedAt providers kind priority) ∧ Settled providers table := by
  obtain ⟨ranked, same, sorted, resolved⟩ := exists_ranked providers
  unfold ofProviders at built
  dsimp only at built
  split at built
  · contradiction
  · rename_i peaceful
    have untied := resolved.untied peaceful
    refine ⟨fun kind priority tied => untied kind priority ((TiedAt.perm same).mpr tied),
      Settled.perm same ?_⟩
    rw [← Except.ok.inj built]
    intro kind
    simp only [resolved.holders]
    cases held : holderAfter ranked kind with
    | none => exact .inl ⟨holderAfter_eq_none held, rfl⟩
    | some holder =>
      obtain ⟨leader, leads, rule⟩ :=
        leads_of_holderAfter sorted held (untied kind holder.priority)
      exact .inr ⟨leader, leads, rule.symm⟩

theorem ok_of_perm {left right : List Provider} (same : left.Perm right) {table : DispatchTable}
    (built : ofProviders left = .ok table) : ofProviders right = .ok table := by
  obtain ⟨untied, settled⟩ := settled_of_ok built
  cases other : ofProviders right with
  | error error =>
    obtain ⟨kind, priority, _, tied, _⟩ := leastTie_of_error other
    exact absurd ((TiedAt.perm same).mpr tied) (untied kind priority)
  | ok otherTable =>
    rw [(settled_of_ok other).2.eq (settled.perm same)]

/-- A table is built if no kind is tied at its least priority, and then has for every kind the last
    rule of the one provider of the least priority, in whatever order the providers come. The error
    names the least tie. -/
theorem resolution (providers : List Provider) :
    ((∃ error, ofProviders providers = .error error) ↔
      ∃ kind priority, TiedAt providers kind priority) ∧
    (∀ error, ofProviders providers = .error error → LeastTie providers error) ∧
    (∀ table, ofProviders providers = .ok table → Settled providers table) ∧
    ∀ others, others.Perm providers → ∀ table,
      ofProviders others = .ok table ↔ ofProviders providers = .ok table := by
  refine ⟨⟨?_, ?_⟩, fun error => leastTie_of_error, fun table built => (settled_of_ok built).2, ?_⟩
  · rintro ⟨error, failed⟩
    obtain ⟨kind, priority, _, tied, _⟩ := leastTie_of_error failed
    exact ⟨kind, priority, tied⟩
  · rintro ⟨kind, priority, tied⟩
    cases built : ofProviders providers with
    | error error => exact ⟨error, rfl⟩
    | ok table => exact absurd tied ((settled_of_ok built).1 kind priority)
  · intro others same table
    exact ⟨ok_of_perm same, ok_of_perm same.symm⟩

def mute : Rule := .ofReplies fun _ _ => .skip []

def loud : Rule := .ofReplies fun _ _ => .skip [.text "!"]

def shadowedTie : List Provider :=
  [⟨5, [(.text, mute)]⟩, ⟨1, [(.text, mute), (.heading, mute), (.text, loud)]⟩,
    ⟨5, [(.text, mute)]⟩]

theorem resolution_shadowedTie :
    (∃ table, ofProviders shadowedTie = .ok table ∧ ofProviders shadowedTie.reverse = .ok table ∧
      table .text = some loud ∧ table .paragraph = none) ∧
    ∃ error, ofProviders (⟨1, [(.heading, loud)]⟩ :: shadowedTie) = .error error ∧
      LeastTie (⟨1, [(.heading, loud)]⟩ :: shadowedTie) error := by
  constructor
  · obtain ⟨fails, _, settled, order⟩ := resolution shadowedTie
    have untied : ¬∃ kind priority, TiedAt shadowedTie kind priority := by
      rintro ⟨kind, priority, tied⟩
      obtain ⟨provider, member, _, rfl⟩ := tied.exists_mem
      have priorities :
          ∀ provider ∈ shadowedTie, provider.priority = 5 ∨ provider.priority = 1 := by
        simp [shadowedTie]
      obtain ⟨least, two⟩ := tied
      rcases priorities provider member with same | same
      all_goals
        rw [same] at least two
        cases kind <;> exact absurd (And.intro least two) (by decide)
    cases found : ofProviders shadowedTie with
    | error error => exact absurd (fails.mp ⟨error, found⟩) untied
    | ok table =>
      have leads : Leads shadowedTie .text
          ⟨1, [(.text, mute), (.heading, mute), (.text, loud)]⟩ :=
        ⟨by decide, [⟨5, [(.text, mute)]⟩, ⟨5, [(.text, mute)]⟩], List.Perm.swap _ _ _, by simp⟩
      refine ⟨table, rfl, (order _ (List.reverse_perm _) table).mpr found, ?_, ?_⟩
      · rcases settled table found .text with ⟨unregistered, _⟩ | ⟨leader, other, rule⟩
        · exact absurd (unregistered _ leads.mem) (by decide)
        · rw [rule, other.eq leads]
          rfl
      · rcases settled table found .paragraph with ⟨_, empty⟩ | ⟨leader, other, _⟩
        · exact empty
        · have none : ∀ provider ∈ shadowedTie, provider.registers .paragraph = false := by decide
          exact absurd other.1 (by simp [none leader other.mem])
  · obtain ⟨fails, reported, _⟩ := resolution (⟨1, [(.heading, loud)]⟩ :: shadowedTie)
    have tied : TiedAt (⟨1, [(.heading, loud)]⟩ :: shadowedTie) .heading 1 :=
      ⟨by decide, by decide⟩
    obtain ⟨error, failed⟩ := fails.mpr ⟨.heading, 1, tied⟩
    exact ⟨error, failed, reported error failed⟩

end DispatchTable

end CanonicalMarkdown
