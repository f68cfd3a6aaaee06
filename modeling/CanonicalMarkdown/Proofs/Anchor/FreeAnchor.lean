import CanonicalMarkdown.Anchor.Heading
import Mathlib.Algebra.BigOperators.Group.List.Basic

namespace CanonicalMarkdown.Anchor

def isAnchorChar (c : Char) : Bool := c.isLower || c.isDigit || c = '-'

/-- An anchor is not empty and has no character that a link to it would have to escape. -/
def IsAnchor (anchor : String) : Prop :=
  anchor ≠ "" ∧ ∀ c ∈ anchor.toList, isAnchorChar c = true

theorem isAnchorChar_toLower {c : Char} (alphanumeric : c.isAlphanum = true) :
    isAnchorChar c.toLower = true := by
  by_cases upper : 'A'.val ≤ c.val ∧ c.val ≤ 'Z'.val
  · have lowered : c.toLower.val = c.val + 32 := congrArg Char.val (dif_pos upper)
    have lower : c.toLower.isLower = true := by
      show (decide (97 ≤ c.toLower.val) && decide (c.toLower.val ≤ 122)) = true
      rw [lowered, Bool.and_eq_true, decide_eq_true_eq, decide_eq_true_eq]
      grind
    simp [isAnchorChar, lower]
  · have same : c.toLower = c := dif_neg upper
    have notUpper : c.isUpper = false := decide_eq_false upper
    have some : (c.isUpper || c.isLower || c.isDigit) = true := alphanumeric
    rw [notUpper, Bool.false_or] at some
    rw [same, isAnchorChar, some, Bool.true_or]

theorem isAnchorChar_slugFrom {pending : Bool} {text : List Char} :
    ∀ c ∈ slugFrom pending text, isAnchorChar c = true := by
  fun_induction slugFrom pending text with
  | case1 => simp
  | case2 pending c rest alphanumeric ih =>
    intro other member
    rcases List.mem_cons.mp member with rfl | member
    · exact isAnchorChar_toLower alphanumeric
    · exact ih other member
  | case3 pending c rest _ _ ih =>
    intro other member
    rcases List.mem_cons.mp member with rfl | member
    · rfl
    · exact ih other member
  | case4 pending c rest _ _ ih => exact ih

theorem dropLastDash_subset (slug : List Char) : dropLastDash slug ⊆ slug := by
  unfold dropLastDash
  split
  · exact List.dropLast_subset slug
  · exact List.Subset.refl slug

namespace Ledger

theorem isAnchor_baseAnchor (text : String) : IsAnchor (baseAnchor text) := by
  unfold baseAnchor
  dsimp only
  split
  · exact ⟨by decide, List.all_eq_true.mp rfl⟩
  · rename_i some
    refine ⟨by simpa using some, fun c member => ?_⟩
    rw [slug, String.toList_ofList] at member
    exact isAnchorChar_slugFrom c (dropLastDash_subset _ member)

def numbered (base : String) (count : Nat) : String := base ++ "-" ++ toString count

theorem numbered_injective {base : String} {count other : Nat}
    (same : numbered base count = numbered base other) : count = other := by
  have digits : Nat.toDigits 10 count = Nat.toDigits 10 other := by
    have chars := congrArg String.toList same
    simpa [numbered, Nat.toString_eq_ofList_toDigits] using chars
  rw [← @Nat.ofDigitChars_ten_toDigits count, digits, Nat.ofDigitChars_ten_toDigits]

theorem isAnchor_numbered {base : String} (anchor : IsAnchor base) (count : Nat) :
    IsAnchor (numbered base count) := by
  refine ⟨by simp [numbered, anchor.1], fun c member => ?_⟩
  simp only [numbered, String.toList_append, List.mem_append] at member
  rcases member with (member | member) | member
  · exact anchor.2 c member
  · have dash : c = '-' := by simpa using member
    simp [isAnchorChar, dash]
  · rw [Nat.toString_eq_ofList_toDigits, String.toList_ofList] at member
    simp [isAnchorChar, Nat.isDigit_of_mem_toDigits (by decide) (by decide) member]

theorem count_take (ledger : Ledger) (anchor other : String) :
    (ledger.take anchor).count other =
      ledger.count other + if other = anchor then 1 else 0 := by
  unfold take count
  dsimp only
  induction ledger.counts with
  | nil => grind [raise]
  | cons entry rest ih => grind [raise]

theorem count_take_le (ledger : Ledger) (anchor other : String) :
    ledger.count other ≤ (ledger.take anchor).count other := by
  rw [count_take]
  omega

def anchors (ledger : Ledger) : List String := ledger.counts.map (·.1)

theorem mem_anchors_of_count {ledger : Ledger} {anchor : String}
    (taken : ledger.count anchor ≠ 0) : anchor ∈ ledger.anchors := by
  unfold count at taken
  cases found : ledger.counts.lookup anchor with
  | none => simp [found] at taken
  | some count =>
    obtain ⟨before, after, split, _⟩ := List.lookup_eq_some_iff.mp found
    simp [anchors, split]

theorem map_raise {anchor : String} {counts : List (String × Nat)}
    (taken : anchor ∈ counts.map (·.1)) : (raise anchor counts).map (·.1) = counts.map (·.1) := by
  induction counts with
  | nil => simp at taken
  | cons entry rest ih => grind [raise]

theorem anchors_take {ledger : Ledger} {anchor : String} (taken : anchor ∈ ledger.anchors) :
    (ledger.take anchor).anchors = ledger.anchors := map_raise taken

theorem findFree_of_free {base candidate : String} {ledger : Ledger} {limit : Nat}
    (free : ledger.count candidate = 0) (some : limit ≠ 0) :
    findFree base limit candidate ledger = (candidate, ledger.take candidate) := by
  obtain ⟨limit, rfl⟩ := Nat.exists_eq_succ_of_ne_zero some
  rw [findFree, if_pos free]

theorem findFree_of_taken {base candidate : String} {ledger : Ledger} {limit : Nat}
    (taken : ledger.count candidate ≠ 0) :
    findFree base (limit + 1) candidate ledger =
      findFree base limit (numbered base (ledger.count candidate)) (ledger.take candidate) := by
  rw [findFree, if_neg taken]
  rfl

/-- Detours that are still open to a search: from a taken anchor to a taken candidate. Every taken
    anchor that is met uses up one of them, since its count will not come back. -/
def Covers (detours : List (String × String)) (base : String) (ledger : Ledger) : Prop :=
  ∀ anchor ∈ ledger.anchors, ∀ count, ledger.count anchor ≤ count →
    numbered base count ∈ ledger.anchors → (anchor, numbered base count) ∈ detours

theorem Covers.take {detours : List (String × String)} {base candidate : String}
    {ledger : Ledger} (covers : Covers detours base ledger) (taken : candidate ∈ ledger.anchors) :
    Covers (detours.erase (candidate, numbered base (ledger.count candidate))) base
      (ledger.take candidate) := by
  intro anchor member count atLeast target
  rw [anchors_take taken] at member target
  rw [count_take] at atLeast
  refine (List.mem_erase_of_ne ?_).mpr (covers anchor member count (by omega) target)
  intro same
  obtain ⟨rfl, sameTarget⟩ := Prod.mk.inj same
  have sameCount := numbered_injective sameTarget
  simp only [if_true] at atLeast
  omega

/-- A search without a limit: the candidates it tries, one after the other, and the anchor and the
    ledger that it ends with. -/
inductive Search (base : String) : String → Ledger → List String → String × Ledger → Prop
  | free {candidate : String} {ledger : Ledger} :
      ledger.count candidate = 0 →
      Search base candidate ledger [candidate] (candidate, ledger.take candidate)
  | taken {candidate : String} {ledger : Ledger} {tried : List String}
      {result : String × Ledger} :
      ledger.count candidate ≠ 0 →
      Search base (numbered base (ledger.count candidate)) (ledger.take candidate) tried result →
      Search base candidate ledger (candidate :: tried) result

namespace Search

variable {base candidate : String} {ledger : Ledger} {tried others : List String}
  {result other : String × Ledger}

theorem unique (first : Search base candidate ledger tried result)
    (second : Search base candidate ledger others other) : others = tried ∧ other = result := by
  induction first generalizing others with
  | free isFree =>
    cases second with
    | free _ => exact ⟨rfl, rfl⟩
    | taken isTaken _ => exact absurd isFree isTaken
  | taken isTaken _ ih =>
    cases second with
    | free isFree => exact absurd isFree isTaken
    | taken _ rest =>
      obtain ⟨rfl, same⟩ := ih rest
      exact ⟨rfl, same⟩

theorem count (search : Search base candidate ledger tried result) (anchor : String) :
    result.2.count anchor = ledger.count anchor + tried.count anchor := by
  induction search with
  | free _ =>
    rw [count_take, List.count_singleton]
    simp only [beq_iff_eq, @eq_comm _ anchor]
  | taken _ _ ih =>
    rw [ih, count_take, List.count_cons]
    simp only [beq_iff_eq, @eq_comm _ anchor]
    omega

theorem mem (search : Search base candidate ledger tried result) : result.1 ∈ tried := by
  induction search with
  | free _ => exact List.mem_singleton_self _
  | taken _ _ ih => exact List.mem_cons_of_mem _ ih

theorem count_anchor (search : Search base candidate ledger tried result) :
    ledger.count result.1 = 0 ∧ result.2.count result.1 = 1 := by
  have once : result.2.count result.1 = 1 := by
    induction search with
    | free isFree => simp [count_take, isFree]
    | taken _ _ ih => exact ih
  have raised := search.count result.1
  have positive := List.count_pos_iff.mpr search.mem
  exact ⟨by omega, once⟩

end Search

/-- The limit is never reached: a search takes each detour once at most. -/
theorem search_findFree {base : String} {limit : Nat} {candidate : String} {ledger : Ledger}
    {detours : List (String × String)} (covers : Covers detours base ledger)
    (enough : detours.length + 2 ≤ limit) :
    ∃ tried, Search base candidate ledger tried (findFree base limit candidate ledger) ∧
      tried.length ≤ detours.length + 2 := by
  induction limit generalizing candidate ledger detours with
  | zero => omega
  | succ limit ih =>
    by_cases free : ledger.count candidate = 0
    · rw [findFree_of_free free (by omega)]
      exact ⟨[candidate], .free free, by simp⟩
    · rw [findFree_of_taken free]
      have taken := mem_anchors_of_count free
      generalize target : numbered base (ledger.count candidate) = next
      by_cases nextFree : (ledger.take candidate).count next = 0
      · rw [findFree_of_free nextFree (by omega)]
        exact ⟨[candidate, next], .taken free (by rw [target]; exact .free nextFree), by simp⟩
      · have nextTaken : next ∈ ledger.anchors := by
          rw [← anchors_take taken]
          exact mem_anchors_of_count nextFree
        have detour : (candidate, next) ∈ detours := by
          rw [← target] at nextTaken ⊢
          exact covers candidate taken _ (Nat.le_refl _) nextTaken
        -- the count of this candidate has grown, so the detour will not come back
        have fewer := List.length_erase_of_mem detour
        have positive := List.length_pos_of_mem detour
        have coversNext := covers.take taken
        rw [target] at coversNext
        obtain ⟨tried, search, short⟩ := ih coversNext (by omega)
        refine ⟨candidate :: tried, .taken free (by rwa [target]), ?_⟩
        rw [List.length_cons]
        omega

theorem isAnchor_findFree {base : String} {limit : Nat} {candidate : String} {ledger : Ledger}
    (isBase : IsAnchor base) (isCandidate : IsAnchor candidate) :
    IsAnchor (findFree base limit candidate ledger).1 := by
  induction limit generalizing candidate ledger with
  | zero => exact isCandidate
  | succ limit ih =>
    rw [findFree]
    split
    · exact isCandidate
    · exact ih (isAnchor_numbered isBase _)

/-- All detours between anchors of the ledger. -/
def detours (ledger : Ledger) : List (String × String) :=
  ledger.anchors.flatMap fun anchor => ledger.anchors.map fun target => (anchor, target)

theorem covers_detours (base : String) (ledger : Ledger) : Covers ledger.detours base ledger := by
  intro anchor member count _ target
  simp [detours, member, target]

theorem length_detours_le (ledger : Ledger) :
    ledger.detours.length + 2 ≤ ledger.searchLimit := by
  have square : ledger.detours.length = ledger.counts.length * ledger.counts.length := by
    simp [detours, anchors, List.length_flatMap, Function.comp_def]
  rw [square, searchLimit, Nat.add_mul, Nat.mul_add]
  omega

theorem search_fresh (ledger : Ledger) (text : String) :
    ∃ tried, Search (baseAnchor text) (baseAnchor text) ledger tried (ledger.fresh text) ∧
      tried.length ≤ ledger.searchLimit := by
  obtain ⟨tried, search, short⟩ :=
    search_findFree (covers_detours (baseAnchor text) ledger) ledger.length_detours_le
  exact ⟨tried, search, Nat.le_trans short ledger.length_detours_le⟩

structure Issued (ledger : Ledger) (ids : List String) (next : Ledger) : Prop where
  distinct : ids.Nodup
  anchors : ∀ id ∈ ids, IsAnchor id
  free : ∀ id ∈ ids, ledger.count id = 0
  taken : ∀ id ∈ ids, next.count id ≠ 0
  kept : ∀ other, ledger.count other ≤ next.count other

theorem Issued.nil (ledger : Ledger) : Issued ledger [] ledger :=
  ⟨by simp, by simp, by simp, by simp, fun _ => Nat.le_refl _⟩

theorem Issued.append {ledger middle next : Ledger} {first second : List String}
    (before : Issued ledger first middle) (after : Issued middle second next) :
    Issued ledger (first ++ second) next := by
  refine ⟨?_, ?_, ?_, ?_, fun other => Nat.le_trans (before.kept other) (after.kept other)⟩
  · refine List.nodup_append.mpr ⟨before.distinct, after.distinct, ?_⟩
    rintro id earlier other later rfl
    exact before.taken id earlier (after.free id later)
  · intro id member
    rcases List.mem_append.mp member with earlier | later
    · exact before.anchors id earlier
    · exact after.anchors id later
  · intro id member
    rcases List.mem_append.mp member with earlier | later
    · exact before.free id earlier
    · have kept := before.kept id
      have free := after.free id later
      omega
  · intro id member
    rcases List.mem_append.mp member with earlier | later
    · have kept := after.kept id
      have taken := before.taken id earlier
      omega
    · exact after.taken id later

theorem issued_fresh (ledger : Ledger) (text : String) :
    Issued ledger [(ledger.fresh text).1] (ledger.fresh text).2 := by
  have isAnchor : IsAnchor (ledger.fresh text).1 :=
    isAnchor_findFree (isAnchor_baseAnchor text) (isAnchor_baseAnchor text)
  obtain ⟨tried, search, _⟩ := search_fresh ledger text
  obtain ⟨free, once⟩ := search.count_anchor
  have raised := search.count
  refine ⟨by simp, by simpa using isAnchor, by simpa using free, ?_, fun other => ?_⟩
  · simp [once]
  · rw [raised]
    exact Nat.le_add_right ..

/-- A search for an anchor ends in any ledger. The candidates it tries are determined, and the last
    of them was free and counts once then. Each count rises by how often its anchor was tried: none
    falls, and those of other anchors stay. -/
theorem fresh_ends (ledger : Ledger) (text : String) :
    ∃ tried,
      (∀ others result, Search (baseAnchor text) (baseAnchor text) ledger others result ↔
        others = tried ∧ result = ledger.fresh text) ∧
      tried.length ≤ ledger.searchLimit ∧
      ledger.count (ledger.fresh text).1 = 0 ∧
      (ledger.fresh text).2.count (ledger.fresh text).1 = 1 ∧
      (∀ anchor, (ledger.fresh text).2.count anchor =
        ledger.count anchor + tried.count anchor) ∧
      ∀ anchor, anchor ∉ tried → (ledger.fresh text).2.count anchor = ledger.count anchor := by
  obtain ⟨tried, search, short⟩ := search_fresh ledger text
  obtain ⟨free, once⟩ := search.count_anchor
  refine ⟨tried, fun others result => ⟨search.unique, ?_⟩, short, free, once, search.count, ?_⟩
  · rintro ⟨rfl, rfl⟩
    exact search
  · intro anchor untried
    rw [search.count, List.count_eq_zero_of_not_mem untried, Nat.add_zero]

def revisited : Ledger := ⟨[("a", 1), ("a-1", 1)]⟩

theorem fresh_ends_revisited :
    revisited.fresh "a" = ("a-2", ⟨[("a", 2), ("a-1", 3), ("a-2", 1)]⟩) ∧
    ∃ tried, Search "a" "a" revisited tried (revisited.fresh "a") ∧ tried.count "a-1" = 2 := by
  have base : baseAnchor "a" = "a" := by decide +kernel
  have fresh : revisited.fresh "a" = ("a-2", ⟨[("a", 2), ("a-1", 3), ("a-2", 1)]⟩) := by
    decide +kernel
  obtain ⟨tried, unique, -, -, -, raised, -⟩ := fresh_ends revisited "a"
  have search := (unique tried _).mpr ⟨rfl, rfl⟩
  have again := raised "a-1"
  rw [fresh] at again
  change 3 = 1 + tried.count "a-1" at again
  rw [base] at search
  exact ⟨fresh, tried, search, by omega⟩

end Ledger

end CanonicalMarkdown.Anchor
