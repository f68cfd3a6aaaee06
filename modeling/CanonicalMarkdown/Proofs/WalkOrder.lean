import CanonicalMarkdown.Proofs.RuleSet

namespace CanonicalMarkdown

inductive Document.Holds (document : Document) : View → Prop
  | root : document.Holds ⟨document.source, ⟨document.root, [], []⟩, []⟩
  | child {view : View} {node : Node} {earlier later : List Node} :
      document.Holds view → view.node.children = earlier.reverse ++ node :: later →
      document.Holds ⟨document.source, ⟨node, earlier, later⟩, view.place :: view.ancestors⟩

/-- The rule of an ancestor would have written the node; no such ancestor is there. -/
def View.Visible (hides : Kind → Bool) (view : View) : Prop :=
  ∀ ancestor ∈ view.ancestors, hides ancestor.node.kind = false

mutual

/-- The calls of rules below and at a node, in the order of the walk. -/
def Node.visits (hides : Kind → Bool) (source : Source) (ancestors : List Place)
    (earlier later : List Node) : Node → List (View × Phase)
  | ⟨payload, span, attributes, children⟩ =>
    let place : Place := ⟨⟨payload, span, attributes, children⟩, earlier, later⟩
    let view : View := ⟨source, place, ancestors⟩
    let below :=
      if hides payload.kind then [] else visitsAll hides source (place :: ancestors) [] children
    (view, .enter) :: (below ++ [(view, .leave)])

def visitsAll (hides : Kind → Bool) (source : Source) (ancestors : List Place)
    (earlier : List Node) : List Node → List (View × Phase)
  | [] => []
  | node :: later =>
    node.visits hides source ancestors earlier later
      ++ visitsAll hides source ancestors (node :: earlier) later

end

def Document.visits (hides : Kind → Bool) (document : Document) : List (View × Phase) :=
  document.root.visits hides document.source [] [] []

def View.visits (hides : Kind → Bool) (view : View) : List (View × Phase) :=
  view.node.visits hides view.source view.ancestors view.place.earlier view.place.later

theorem View.visits_eq (hides : Kind → Bool) (view : View) :
    view.visits hides = (view, .enter) ::
      ((if hides view.node.kind then []
        else visitsAll hides view.source (view.place :: view.ancestors) [] view.node.children)
      ++ [(view, .leave)]) := by
  obtain ⟨source, ⟨⟨payload, span, attributes, children⟩, earlier, later⟩, ancestors⟩ := view
  simp only [View.visits, View.node, Node.visits]
  rfl

theorem visits_subset_visitsAll (hides : Kind → Bool) (source : Source) (ancestors : List Place)
    (earlier before later : List Node) (node : Node) :
    node.visits hides source ancestors (before.reverse ++ earlier) later ⊆
      visitsAll hides source ancestors earlier (before ++ node :: later) := by
  induction before generalizing earlier with
  | nil => simp [visitsAll]
  | cons first rest ih =>
    intro visit member
    have deeper := ih (first :: earlier) (by simpa using member)
    simp only [List.cons_append, visitsAll, List.mem_append]
    exact .inr deeper

theorem Document.Holds.source_eq {document : Document} {view : View} (holds : document.Holds view) :
    view.source = document.source := by
  cases holds <;> rfl

theorem Document.Holds.visits_subset {document : Document} {view : View} {hides : Kind → Bool}
    (holds : document.Holds view) (visible : view.Visible hides) :
    view.visits hides ⊆ document.visits hides := by
  induction holds with
  | root => exact fun visit member => member
  | @child parent node earlier later above children ih =>
    have shown : hides parent.node.kind = false := visible _ (by simp)
    have parentVisits := ih fun ancestor member => visible ancestor (by simp [member])
    intro visit member
    apply parentVisits
    rw [View.visits_eq, shown, above.source_eq, children]
    have below := visits_subset_visitsAll hides document.source (parent.place :: parent.ancestors)
      [] earlier.reverse later node
    simp only [List.reverse_reverse, List.append_nil] at below
    simp only [Bool.false_eq_true, if_false, List.mem_cons, List.mem_append]
    exact .inr (.inl (below member))

mutual

theorem Node.holds_of_mem_visits {document : Document} {hides : Kind → Bool}
    {ancestors : List Place} {earlier later : List Node} {visit : View × Phase} :
    ∀ node : Node, document.Holds ⟨document.source, ⟨node, earlier, later⟩, ancestors⟩ →
      (∀ ancestor ∈ ancestors, hides ancestor.node.kind = false) →
      visit ∈ node.visits hides document.source ancestors earlier later →
      document.Holds visit.1 ∧ visit.1.Visible hides
  | ⟨payload, span, attributes, children⟩, holds, visible, member => by
    rw [Node.visits] at member
    rcases List.mem_cons.mp member with rfl | member
    · exact ⟨holds, visible⟩
    · rcases List.mem_append.mp member with member | member
      · split at member
        · simp at member
        · rename_i shown
          refine holds_of_mem_visitsAll children holds rfl ?_ member
          intro ancestor among
          rcases List.mem_cons.mp among with rfl | above
          · show hides payload.kind = false
            simpa using shown
          · exact visible ancestor above
      · rw [List.mem_singleton.mp member]
        exact ⟨holds, visible⟩

theorem holds_of_mem_visitsAll {document : Document} {hides : Kind → Bool} {parent : View}
    {earlier : List Node} {visit : View × Phase} :
    ∀ nodes : List Node, document.Holds parent →
      parent.node.children = earlier.reverse ++ nodes →
      (∀ ancestor ∈ parent.place :: parent.ancestors, hides ancestor.node.kind = false) →
      visit ∈ visitsAll hides document.source (parent.place :: parent.ancestors) earlier nodes →
      document.Holds visit.1 ∧ visit.1.Visible hides
  | [], _, _, _, member => by simp [visitsAll] at member
  | node :: later, holds, children, visible, member => by
    rw [visitsAll] at member
    rcases List.mem_append.mp member with member | member
    · exact Node.holds_of_mem_visits node (.child holds children) visible member
    · exact holds_of_mem_visitsAll later holds (by simpa using children) visible member

end

mutual

theorem Node.mem_ancestors_of_mem_visits {hides : Kind → Bool} {source : Source}
    {ancestors : List Place} {earlier later : List Node} {place : Place} {visit : View × Phase} :
    ∀ node : Node, place ∈ ancestors →
      visit ∈ node.visits hides source ancestors earlier later → place ∈ visit.1.ancestors
  | ⟨payload, span, attributes, children⟩, around, member => by
    rw [Node.visits] at member
    rcases List.mem_cons.mp member with rfl | member
    · exact around
    · rcases List.mem_append.mp member with member | member
      · split at member
        · simp at member
        · exact mem_ancestors_of_mem_visitsAll children (List.mem_cons_of_mem _ around) member
      · rw [List.mem_singleton.mp member]
        exact around

theorem mem_ancestors_of_mem_visitsAll {hides : Kind → Bool} {source : Source}
    {ancestors : List Place} {earlier : List Node} {place : Place} {visit : View × Phase} :
    ∀ nodes : List Node, place ∈ ancestors →
      visit ∈ visitsAll hides source ancestors earlier nodes → place ∈ visit.1.ancestors
  | [], _, member => by simp [visitsAll] at member
  | node :: later, around, member => by
    rw [visitsAll] at member
    rcases List.mem_append.mp member with member | member
    · exact node.mem_ancestors_of_mem_visits around member
    · exact mem_ancestors_of_mem_visitsAll later around member

end

/-- The walk visits the nodes that no ancestor hides, once before and once after their children. -/
theorem Document.mem_visits {document : Document} {hides : Kind → Bool} {view : View}
    {phase : Phase} :
    (view, phase) ∈ document.visits hides ↔ document.Holds view ∧ view.Visible hides := by
  constructor
  · intro member
    exact Node.holds_of_mem_visits document.root .root (by simp) member
  · rintro ⟨holds, visible⟩
    apply holds.visits_subset visible
    rw [View.visits_eq]
    cases phase <;> simp

/-- The walk failed with the error or, without one, ended with the levels. -/
def Walked.EndsWith (levels : List String) : Option RenderError → Walked → Prop
  | none, .done page => page.padding.levels = levels
  | some error, .failed _ actual => actual = error
  | _, _ => False

theorem Walked.EndsWith.done {levels : List String} {walked : Walked}
    (ended : walked.EndsWith levels none) :
    ∃ page, walked = .done page ∧ page.padding.levels = levels := by
  cases walked with
  | done page => exact ⟨page, rfl, ended⟩
  | stopped page => exact ended.elim
  | failed page error => exact ended.elim

theorem Walked.EndsWith.failed {levels : List String} {error : RenderError} {walked : Walked}
    (ended : walked.EndsWith levels (some error)) : ∃ page, walked = .failed page error := by
  cases walked with
  | done page => exact ended.elim
  | stopped page => exact ended.elim
  | failed page actual => exact ⟨page, by rw [show actual = error from ended]⟩

theorem Walked.EndsWith.andThen {inside outside : List String} {first second : Option RenderError}
    {walked : Walked} {next : Page → Walked} (ended : walked.EndsWith inside first)
    (more : ∀ page, page.padding.levels = inside → (next page).EndsWith outside second) :
    (walked.andThen next).EndsWith outside (first.or second) := by
  cases walked with
  | done page =>
    cases first with
    | none => exact more page ended
    | some error => exact ended.elim
  | stopped page => cases first <;> exact ended.elim
  | failed page actual =>
    cases first with
    | none => exact ended.elim
    | some error => exact ended

theorem Renderer.depart_ends {renderer : Renderer} {rules : RuleSet}
    (follows : renderer.Follows rules) {view : View} {page : Page} {levels : List String}
    (inside : page.padding.levels = rules.opened view ++ levels) :
    (renderer.depart view levels.length page).EndsWith levels
      (rules.complaint (view, .leave)) := by
  have after : levelsAfter (rules.reply view .leave).strokes page.padding.levels = some levels := by
    rw [inside]
    exact rules.levels_leave view levels
  obtain ⟨left, answered, same⟩ := Page.answer_of_levelsAfter after
  unfold Renderer.depart RuleSet.complaint
  rw [follows, answered]
  cases next : (rules.reply view .leave).next with
  | error error => exact rfl
  | ok step =>
    rw [rules.leaves view step next]
    show (renderer.writeGap view (left.truncate levels.length)).padding.levels = levels
    subst same
    rw [renderer.levels_writeGap]
    exact congrArg (·.padding.levels) (Page.truncate_of_levels rfl)

mutual

/-- The first complaint ends the walk. Without one, the padding is as it was at the start. -/
theorem Renderer.walk_ends {renderer : Renderer} {rules : RuleSet}
    (follows : renderer.Follows rules) (source : Source) (ancestors : List Place)
    (earlier later : List Node) : ∀ (node : Node) (page : Page),
    (renderer.walk source ancestors earlier later node page).EndsWith page.padding.levels
      ((node.visits rules.hides source ancestors earlier later).findSome? rules.complaint)
  | ⟨payload, span, attributes, children⟩, page => by
    rw [Renderer.walk, Node.visits]
    generalize placed : Place.mk ⟨payload, span, attributes, children⟩ earlier later = place
    have kind : place.node.kind = payload.kind := by rw [← placed]; rfl
    obtain ⟨entered, answered, inside⟩ :=
      Page.answer_of_levelsAfter (rules.levels_enter ⟨source, place, ancestors⟩ page.padding.levels)
    simp only [follows _ _ _, answered]
    rw [List.findSome?_cons, List.findSome?_append, List.findSome?_singleton]
    cases next : (rules.reply ⟨source, place, ancestors⟩ .enter).next with
    | error error => simp [RuleSet.complaint, next, Walked.EndsWith]
    | ok step =>
      have step_eq := rules.enters _ _ next
      have calm : rules.complaint (⟨source, place, ancestors⟩, .enter) = none := by
        simp [RuleSet.complaint, next]
      have departs : ∀ left : Page, left.padding.levels = entered.padding.levels →
          (renderer.depart ⟨source, place, ancestors⟩ page.padding.depth left).EndsWith
            page.padding.levels (rules.complaint (⟨source, place, ancestors⟩, .leave)) :=
        fun left same => renderer.depart_ends follows (same.trans inside)
      simp only [View.node, kind] at step_eq
      rw [calm]
      by_cases hidden : rules.hides payload.kind = true
      · simp only [hidden, if_true] at step_eq ⊢
        subst step_eq
        simpa using departs entered rfl
      · simp only [hidden] at step_eq ⊢
        subst step_eq
        have below := renderer.walkAll_ends follows source (place :: ancestors) [] children entered
        simpa using below.andThen departs

theorem Renderer.walkAll_ends {renderer : Renderer} {rules : RuleSet}
    (follows : renderer.Follows rules) (source : Source) (ancestors : List Place)
    (earlier : List Node) : ∀ (nodes : List Node) (page : Page),
    (renderer.walkAll source ancestors earlier nodes page).EndsWith page.padding.levels
      ((visitsAll rules.hides source ancestors earlier nodes).findSome? rules.complaint)
  | [], page => by
    rw [Renderer.walkAll, visitsAll]
    exact rfl
  | node :: later, page => by
    rw [Renderer.walkAll, visitsAll, List.findSome?_append]
    refine (renderer.walk_ends follows source ancestors earlier later node page).andThen ?_
    intro between same
    rw [← same]
    exact renderer.walkAll_ends follows source ancestors (node :: earlier) later between

end

end CanonicalMarkdown
