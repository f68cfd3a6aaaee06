import CanonicalMarkdown.Proofs.Delivery
import CanonicalMarkdown.Proofs.Html.RuleSet
import CanonicalMarkdown.Proofs.Markdown.RuleSet
import CanonicalMarkdown.Proofs.WalkOrder

namespace CanonicalMarkdown

section visits

variable {α : Type} {hides : Kind → Bool} {first second : View × Phase → Option α}

mutual

/-- Two searches that agree where a node is entered need to agree where it is left only if they
    went by its entry. -/
theorem Node.findSome?_visits_congr (enter : ∀ view, first (view, .enter) = second (view, .enter))
    (leave : ∀ view, first (view, .enter) = none → first (view, .leave) = second (view, .leave))
    (source : Source) (ancestors : List Place) (earlier later : List Node) : ∀ node : Node,
    (node.visits hides source ancestors earlier later).findSome? first =
      (node.visits hides source ancestors earlier later).findSome? second
  | ⟨payload, span, attributes, children⟩ => by
    rw [Node.visits]
    generalize Place.mk ⟨payload, span, attributes, children⟩ earlier later = place
    rw [List.findSome?_cons, List.findSome?_cons, ← enter]
    cases entered : first (⟨source, place, ancestors⟩, .enter) with
    | some found => rfl
    | none =>
      dsimp only
      rw [List.findSome?_append, List.findSome?_append, List.findSome?_singleton,
        List.findSome?_singleton, leave _ entered]
      split
      · rfl
      · rw [findSome?_visitsAll_congr enter leave source (place :: ancestors) [] children]

theorem findSome?_visitsAll_congr
    (enter : ∀ view, first (view, .enter) = second (view, .enter))
    (leave : ∀ view, first (view, .enter) = none → first (view, .leave) = second (view, .leave))
    (source : Source) (ancestors : List Place) (earlier : List Node) : ∀ nodes : List Node,
    (visitsAll hides source ancestors earlier nodes).findSome? first =
      (visitsAll hides source ancestors earlier nodes).findSome? second
  | [] => rfl
  | node :: later => by
    rw [visitsAll, List.findSome?_append, List.findSome?_append,
      Node.findSome?_visits_congr enter leave source ancestors earlier later node,
      findSome?_visitsAll_congr enter leave source ancestors (node :: earlier) later]

end

end visits

namespace Renderer

variable {renderer : Renderer} {rules : RuleSet}

theorem run_ends (follows : renderer.Follows rules) (document : Document) :
    (renderer.run document).EndsWith []
      ((document.visits rules.hides).findSome? rules.complaint) :=
  renderer.walk_ends follows document.source [] [] [] document.root _

theorem error_renderTo (follows : renderer.Follows rules) {sink : Sink}
    (unlimited : sink.room = none) (document : Document) :
    (renderer.renderTo document sink).error =
      (document.visits rules.hides).findSome? rules.complaint := by
  have ends := renderer.run_ends follows document
  unfold renderTo
  cases first : (document.visits rules.hides).findSome? rules.complaint with
  | none =>
    rw [first] at ends
    obtain ⟨page, done, _⟩ := ends.done
    rw [done]
    exact congrArg Delivery.error (Sink.deliver_unlimited unlimited page none)
  | some error =>
    rw [first] at ends
    obtain ⟨page, failed⟩ := ends.failed
    rw [failed]
    exact congrArg Delivery.error (Sink.deliver_unlimited unlimited page (some error))

theorem render_of_no_complaint (follows : renderer.Follows rules) {document : Document}
    (calm : (document.visits rules.hides).findSome? rules.complaint = none) :
    ∃ text, renderer.render document = .ok text := by
  have ends := renderer.run_ends follows document
  rw [calm] at ends
  obtain ⟨page, done, _⟩ := ends.done
  exact ⟨page.text, by rw [render, done]⟩

end Renderer

def Html.offence : View × Phase → Option RenderError
  | (view, .enter) => if view.isStrayItem then some strayItem else none
  | (_, .leave) => none

theorem Html.findSome?_complaint (document : Document) :
    (document.visits hides).findSome? ruleSet.complaint =
      (document.visits hides).findSome? offence := by
  refine Node.findSome?_visits_congr ?_ ?_ document.source [] [] [] document.root
  · intro view
    simp only [RuleSet.complaint, ruleSet, reply, next_enter, offence]
    cases view.isStrayItem <;> rfl
  · intro view entered
    simp only [RuleSet.complaint, ruleSet, reply, next_enter, next_leave, offence] at entered ⊢
    cases stray : view.isStrayItem <;> simp [stray] at entered ⊢

/-- An item is looked at before its children and a table head after them. -/
def Markdown.offence : View × Phase → Option RenderError
  | (view, .enter) => if view.isStrayItem then some (strayItem view) else none
  | (view, .leave) => if view.isStrayHead then some strayHead else none

theorem Markdown.findSome?_complaint (document : Document) :
    (document.visits hides).findSome? ruleSet.complaint =
      (document.visits hides).findSome? offence := by
  refine Node.findSome?_visits_congr ?_ ?_ document.source [] [] [] document.root
  · intro view
    simp only [RuleSet.complaint, ruleSet, reply, next_enter, offence]
    cases view.isStrayItem <;> rfl
  · intro view entered
    simp only [RuleSet.complaint, ruleSet, reply, next_enter, next_leave, offence] at entered ⊢
    cases stray : view.isStrayItem <;> cases view.isStrayHead <;> simp [stray] at entered ⊢

namespace View

theorem kind_of_isStrayItem {view : View} (stray : view.isStrayItem = true) :
    view.node.kind = .listItem := by
  unfold isStrayItem at stray
  simp only [Bool.and_eq_true, decide_eq_true_eq] at stray
  exact stray.1

theorem kind_of_isStrayHead {view : View} (stray : view.isStrayHead = true) :
    view.node.kind = .tableHead := by
  unfold isStrayHead at stray
  simp only [Bool.and_eq_true, decide_eq_true_eq] at stray
  exact stray.1

end View

theorem Html.offends_iff {view : View} :
    (∃ phase, offence (view, phase) ≠ none) ↔ view.isStrayItem = true := by
  constructor
  · rintro ⟨phase, offends⟩
    cases phase <;> simp_all [offence]
  · intro stray
    exact ⟨.enter, by simp [offence, stray]⟩

theorem Markdown.offends_iff {view : View} :
    (∃ phase, offence (view, phase) ≠ none) ↔
      view.isStrayItem = true ∨ view.isStrayHead = true := by
  constructor
  · rintro ⟨phase, offends⟩
    cases phase <;> simp_all [offence]
  · rintro (stray | stray)
    · exact ⟨.enter, by simp [offence, stray]⟩
    · exact ⟨.leave, by simp [offence, stray]⟩

theorem Html.offence_misplaced {view : View} {phase : Phase} {error : RenderError}
    (offends : offence (view, phase) = some error) :
    ∃ expectation, error = .misplaced view.node.kind expectation := by
  cases phase with
  | leave => contradiction
  | enter =>
    obtain ⟨stray, same⟩ := Option.ite_none_right_eq_some.mp offends
    rw [View.kind_of_isStrayItem stray]
    exact ⟨_, (Option.some.inj same).symm⟩

theorem Markdown.offence_misplaced {view : View} {phase : Phase} {error : RenderError}
    (offends : offence (view, phase) = some error) :
    ∃ expectation, error = .misplaced view.node.kind expectation := by
  cases phase with
  | leave =>
    obtain ⟨stray, same⟩ := Option.ite_none_right_eq_some.mp offends
    rw [View.kind_of_isStrayHead stray]
    exact ⟨_, (Option.some.inj same).symm⟩
  | enter =>
    obtain ⟨stray, same⟩ := Option.ite_none_right_eq_some.mp offends
    rw [View.kind_of_isStrayItem stray]
    exact ⟨_, (Option.some.inj same).symm⟩

/-- The outcome is the first of the offences that the walk comes by, and it is about the node where
    it was found. -/
structure Document.FailsWith (document : Document) (hides : Kind → Bool)
    (offence : View × Phase → Option RenderError) (outcome : Option RenderError) : Prop where
  first : outcome = (document.visits hides).findSome? offence
  misplaced : ∀ error, outcome = some error →
    ∃ before view phase after expectation,
      document.visits hides = before ++ (view, phase) :: after ∧
      (∀ visit ∈ before, offence visit = none) ∧ error = .misplaced view.node.kind expectation

theorem Document.failsWith_first {document : Document} {hides : Kind → Bool}
    {offence : View × Phase → Option RenderError}
    (misplaced : ∀ {view phase error}, offence (view, phase) = some error →
      ∃ expectation, error = .misplaced view.node.kind expectation) :
    document.FailsWith hides offence ((document.visits hides).findSome? offence) := by
  refine ⟨rfl, ?_⟩
  intro error found
  obtain ⟨before, ⟨view, phase⟩, after, split, offends, clear⟩ :=
    List.findSome?_eq_some_iff.mp found
  obtain ⟨expectation, same⟩ := misplaced offends
  exact ⟨before, view, phase, after, expectation, split, clear, same⟩

theorem Document.findSome?_visits_ne_none {document : Document} {hides : Kind → Bool}
    {offence : View × Phase → Option RenderError} :
    (document.visits hides).findSome? offence ≠ none ↔
      ∃ view, document.Holds view ∧ view.Visible hides ∧
        ∃ phase, offence (view, phase) ≠ none := by
  constructor
  · intro found
    obtain ⟨error, same⟩ := Option.ne_none_iff_exists'.mp found
    obtain ⟨⟨view, phase⟩, member, offends⟩ := List.exists_of_findSome?_eq_some same
    obtain ⟨holds, visible⟩ := Document.mem_visits.mp member
    exact ⟨view, holds, visible, phase, by simp [offends]⟩
  · rintro ⟨view, holds, visible, phase, offends⟩ clear
    exact offends (List.findSome?_eq_none_iff.mp clear _ (Document.mem_visits.mpr ⟨holds, visible⟩))

/-- With the rules of one target alone and a sink that takes everything, a rendering fails exactly
    if the walk comes by an item outside a list or, in Markdown, a table head outside a table. The
    error tells of the first of them, an item found before its children and a head after them. -/
theorem Renderer.renderTo_fails_iff_misplaced :
    (∀ (renderer : Renderer) priority document (sink : Sink),
      DispatchTable.ofProviders [Markdown.provider priority] = .ok renderer.table →
      sink.room = none →
      document.FailsWith Markdown.hides Markdown.offence (renderer.renderTo document sink).error ∧
      ((renderer.renderTo document sink).error ≠ none ↔
        ∃ view, document.Holds view ∧ view.Visible Markdown.hides ∧
          (view.isStrayItem = true ∨ view.isStrayHead = true))) ∧
    (∀ (renderer : Renderer) priority document (sink : Sink),
      DispatchTable.ofProviders [Html.provider priority] = .ok renderer.table →
      sink.room = none →
      document.FailsWith Html.hides Html.offence (renderer.renderTo document sink).error ∧
      ((renderer.renderTo document sink).error ≠ none ↔
        ∃ view, document.Holds view ∧ view.Visible Html.hides ∧ view.isStrayItem = true)) := by
  constructor
  · intro renderer priority document sink alone unlimited
    have error : (renderer.renderTo document sink).error =
        (document.visits Markdown.hides).findSome? Markdown.offence := by
      rw [error_renderTo (Markdown.follows alone) unlimited]
      exact Markdown.findSome?_complaint document
    rw [error]
    refine ⟨Document.failsWith_first Markdown.offence_misplaced, ?_⟩
    rw [Document.findSome?_visits_ne_none]
    simp only [Markdown.offends_iff]
  · intro renderer priority document sink alone unlimited
    have error : (renderer.renderTo document sink).error =
        (document.visits Html.hides).findSome? Html.offence := by
      rw [error_renderTo (Html.follows alone) unlimited]
      exact Html.findSome?_complaint document
    rw [error]
    refine ⟨Document.failsWith_first Html.offence_misplaced, ?_⟩
    rw [Document.findSome?_visits_ne_none]
    simp only [Html.offends_iff]

def strayHeadAroundItem : Node :=
  let item : Node := .leaf (.listItem 2) ⟨0, 0⟩
  ⟨.paragraph, ⟨0, 0⟩, {}, [⟨.tableHead, ⟨0, 0⟩, {}, [item]⟩]⟩

theorem Renderer.renderTo_fails_strayHeadAroundItem :
    let document : Document := ⟨⟨[]⟩, strayHeadAroundItem⟩
    (({ table := Markdown.table } : Renderer).renderTo document {}).error =
      some (.misplaced .listItem "list item inside TableHead") ∧
    (({ table := Html.table } : Renderer).renderTo document {}).error =
      some (.misplaced .listItem "list item outside a list") := by
  obtain ⟨markdown, html⟩ := renderTo_fails_iff_misplaced
  intro document
  constructor
  · rw [(markdown _ 500 document {} (Markdown.ofProviders_provider 500) rfl).1.first]
    rfl
  · rw [(html _ 500 document {} (Html.ofProviders_provider 500) rfl).1.first]
    rfl

end CanonicalMarkdown
