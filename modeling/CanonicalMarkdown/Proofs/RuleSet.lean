import CanonicalMarkdown.Html.Rules
import CanonicalMarkdown.Markdown.Rules
import CanonicalMarkdown.Proofs.PaddingLevels
import CanonicalMarkdown.Proofs.Resolution

namespace CanonicalMarkdown

namespace View

def isIn (view : View) (kind : Kind) : Bool := view.parent?.any (·.node.kind = kind)

def isStrayItem (view : View) : Bool := view.node.kind = .listItem && !view.isIn .list

def isStrayHead (view : View) : Bool := view.node.kind = .tableHead && !view.isIn .table

theorem isIn_list {view : View} :
    view.isIn .list = true ↔
      ∃ parent style, view.parent? = some parent ∧ parent.node.payload = .list style := by
  cases found : view.parent? with
  | none => simp [isIn, found]
  | some parent =>
    cases payload : parent.node.payload <;>
      simp [isIn, found, payload, Node.kind, Payload.kind]

theorem isIn_table {view : View} :
    view.isIn .table = true ↔
      ∃ parent alignments, view.parent? = some parent ∧ parent.node.payload = .table alignments := by
  cases found : view.parent? with
  | none => simp [isIn, found]
  | some parent =>
    cases payload : parent.node.payload <;>
      simp [isIn, found, payload, Node.kind, Payload.kind]

end View

structure RuleSet where
  reply : View → Phase → Reply
  /-- The kinds whose rules write the children themselves. -/
  hides : Kind → Bool
  opened : View → List String
  levels_enter : ∀ view levels,
    levelsAfter (reply view .enter).strokes levels = some (opened view ++ levels)
  levels_leave : ∀ view levels,
    levelsAfter (reply view .leave).strokes (opened view ++ levels) = some levels
  enters : ∀ view step, (reply view .enter).next = .ok step →
    step = if hides view.node.kind then .skipChildren else .descend
  leaves : ∀ view step, (reply view .leave).next = .ok step → step = .descend
  keeps_balance : ∀ view phase, (reply view phase).next ≠ .error .paddingUnderflow

def RuleSet.complaint (rules : RuleSet) (visit : View × Phase) : Option RenderError :=
  match (rules.reply visit.1 visit.2).next with
  | .error error => some error
  | .ok _ => none

theorem RuleSet.complaint_ne_paddingUnderflow (rules : RuleSet) (visit : View × Phase) :
    rules.complaint visit ≠ some .paddingUnderflow := by
  have balance := rules.keeps_balance visit.1 visit.2
  unfold complaint
  cases answered : (rules.reply visit.1 visit.2).next with
  | error error => simpa [answered] using balance
  | ok step => simp

def Renderer.Follows (renderer : Renderer) (rules : RuleSet) : Prop :=
  ∀ view phase page, renderer.answer view phase page = page.answer (rules.reply view phase)

theorem Page.answer_of_levelsAfter {page : Page} {reply : Reply} {levels : List String}
    (after : levelsAfter reply.strokes page.padding.levels = some levels) :
    ∃ next, page.answer reply = (next, reply.next) ∧ next.padding.levels = levels := by
  obtain ⟨next, applied, same⟩ := applyAll_of_levelsAfter after
  exact ⟨next, by simp only [Page.answer, applied], same⟩

theorem Renderer.Follows.answer_of_applyAll {renderer : Renderer} {rules : RuleSet}
    (follows : renderer.Follows rules) {view : View} {phase : Phase} {page next : Page}
    (applied : page.applyAll (rules.reply view phase).strokes = (next, none)) :
    renderer.answer view phase page = (next, (rules.reply view phase).next) := by
  rw [follows, Page.answer, applied]

@[simp] theorem Page.answer_nothing (page : Page) :
    page.answer (.descend []) = (page, .ok .descend) := rfl

namespace DispatchTable

theorem rule?_alone (priority : Int) (kinds : List Kind) (rule : Rule) (kind : Kind) :
    Provider.rule? ⟨priority, kinds.map fun kind => (kind, rule)⟩ kind =
      if kind ∈ kinds then some rule else none := by
  induction kinds using List.reverseRecOn with
  | nil => rfl
  | append_singleton kinds last ih =>
    rw [List.map_append, List.map_cons, List.map_nil, Provider.rule?_concat, ih]
    by_cases same : last = kind
    · simp [same]
    · simp [same, Ne.symm same]

theorem ofProviders_alone (priority : Int) (kinds : List Kind) (rule : Rule) :
    DispatchTable.ofProviders [⟨priority, kinds.map fun kind => (kind, rule)⟩] =
      .ok fun kind => if kind ∈ kinds then some rule else none := by
  obtain ⟨holders, conflict⟩ :=
    @Contest.enterAll_spec {} ⟨priority, kinds.map fun kind => (kind, rule)⟩ 0 (by simp)
  have contest : Contest.ofProviders [⟨priority, kinds.map fun kind => (kind, rule)⟩] =
      ({} : Contest).enterAll ⟨priority, kinds.map fun kind => (kind, rule)⟩ 0 := by
    simp [Contest.ofProviders]
  have peaceful : ({} : Contest).tie? ⟨priority, kinds.map fun kind => (kind, rule)⟩ = none := by
    simp [Contest.tie?]
  simp only [DispatchTable.ofProviders, contest, conflict, peaceful, Option.or_none]
  congr 1
  funext kind
  rw [holders, rule?_alone]
  by_cases ruled : kind ∈ kinds <;> simp [ruled]

end DispatchTable

theorem Renderer.follows_alone {renderer : Renderer} {rules : RuleSet} {priority : Int}
    {kinds : List Kind}
    (silent : ∀ view phase, view.node.kind ∉ kinds → rules.reply view phase = .descend [])
    (alone : DispatchTable.ofProviders
      [⟨priority, kinds.map fun kind => (kind, .ofReplies rules.reply)⟩] = .ok renderer.table) :
    renderer.Follows rules := by
  intro view phase page
  rw [DispatchTable.ofProviders_alone] at alone
  have table := Except.ok.inj alone
  simp only [Renderer.answer, ← table]
  by_cases ruled : view.node.kind ∈ kinds
  · simp [ruled, Rule.ofReplies]
  · simp [ruled, silent view phase ruled]

end CanonicalMarkdown
