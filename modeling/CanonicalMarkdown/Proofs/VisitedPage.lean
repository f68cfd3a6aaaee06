import CanonicalMarkdown.Proofs.WalkOrder

namespace CanonicalMarkdown

/-- A gap in strokes, on a page that ends with a newline or does not. -/
def Gap.strokes (gap : Gap) (onNewLine : Bool) : List Stroke :=
  (if onNewLine then [.blankPadding] else []) ++
    ((if gap = .blankLine then [.text "\n", .blankPadding] else []) ++ [.text "\n", .padding])

namespace Page

theorem applyAll_append (page : Page) (first second : List Stroke) :
    page.applyAll (first ++ second) =
      match page.applyAll first with
      | (next, none) => next.applyAll second
      | failed => failed := by
  induction first generalizing page with
  | nil => rfl
  | cons stroke rest ih =>
    rw [List.cons_append, applyAll, applyAll]
    cases page.apply stroke with
    | error error => rfl
    | ok next => exact ih next

theorem applyAll_gap (page : Page) (gap : Gap) :
    page.applyAll (gap.strokes page.onNewLine) = (page.writeGap gap, none) := by
  unfold Gap.strokes writeGap
  cases page.onNewLine <;> cases gap <;> rfl

end Page

namespace Renderer

def gapStrokes (renderer : Renderer) (view : View) (onNewLine : Bool) : List Stroke :=
  match view.place.next? with
  | none => []
  | some next =>
    if renderer.separators && view.node.kind.isBlock then
      let parent? := view.ancestors.head?.map (·.node)
      let grandparent? := view.ancestors[1]?.map (·.node)
      (Gap.between view.node parent? grandparent? next).strokes onNewLine
    else []

theorem applyAll_gapStrokes (renderer : Renderer) (view : View) (page : Page) :
    page.applyAll (renderer.gapStrokes view page.onNewLine) = (renderer.writeGap view page, none) := by
  unfold gapStrokes writeGap
  cases view.place.next? with
  | none => rfl
  | some next =>
    dsimp only
    split
    · exact page.applyAll_gap _
    · rfl

/-- The strokes of one call of a rule. Behind those for a node that is left come those of the gap. -/
def strokes (renderer : Renderer) (rules : RuleSet) (page : Page) : View × Phase → List Stroke
  | (view, .enter) => (rules.reply view .enter).strokes
  | (view, .leave) =>
    let own := (rules.reply view .leave).strokes
    own ++ renderer.gapStrokes view (page.applyAll own).1.onNewLine

def visit (renderer : Renderer) (rules : RuleSet) (page : Page) (visit : View × Phase) : Page :=
  (page.applyAll (renderer.strokes rules page visit)).1

variable {renderer : Renderer} {rules : RuleSet}

theorem answer_enter (follows : renderer.Follows rules) (view : View) (page : Page) :
    renderer.answer view .enter page =
        (renderer.visit rules page (view, .enter), (rules.reply view .enter).next) ∧
      (renderer.visit rules page (view, .enter)).padding.levels =
        rules.opened view ++ page.padding.levels := by
  obtain ⟨entered, applied, levels⟩ :=
    Page.applyAll_of_levelsAfter (rules.levels_enter view page.padding.levels)
  have same : renderer.visit rules page (view, .enter) = entered := by
    rw [visit, strokes, applied]
  rw [follows, same, Page.answer, applied]
  exact ⟨rfl, levels⟩

theorem depart_eq_visit (follows : renderer.Follows rules) {view : View} {page : Page}
    {levels : List String} (inside : page.padding.levels = rules.opened view ++ levels)
    (calm : rules.complaint (view, .leave) = none) :
    renderer.depart view levels.length page = .done (renderer.visit rules page (view, .leave)) := by
  have after : levelsAfter (rules.reply view .leave).strokes page.padding.levels = some levels := by
    rw [inside]
    exact rules.levels_leave view levels
  obtain ⟨left, applied, same⟩ := Page.applyAll_of_levelsAfter after
  have visited : renderer.visit rules page (view, .leave) = renderer.writeGap view left := by
    simp only [visit, strokes, Page.applyAll_append, applied, applyAll_gapStrokes]
  unfold depart
  rw [follows, Page.answer, applied, visited]
  unfold RuleSet.complaint at calm
  cases next : (rules.reply view .leave).next with
  | error error => simp [next] at calm
  | ok step =>
    rw [rules.leaves view step next]
    subst same
    exact congrArg (fun page => Walked.done (renderer.writeGap view page))
      (Page.truncate_of_levels rfl)

mutual

theorem walk_eq_foldl (follows : renderer.Follows rules) (source : Source) (ancestors : List Place)
    (earlier later : List Node) : ∀ (node : Node) (page : Page),
    (node.visits rules.hides source ancestors earlier later).findSome? rules.complaint = none →
    renderer.walk source ancestors earlier later node page =
      .done ((node.visits rules.hides source ancestors earlier later).foldl
        (renderer.visit rules) page)
  | ⟨payload, span, attributes, children⟩, page, calm => by
    rw [Node.visits] at calm ⊢
    rw [walk]
    generalize placed : Place.mk ⟨payload, span, attributes, children⟩ earlier later = place
      at calm ⊢
    have kind : place.node.kind = payload.kind := by rw [← placed]; rfl
    rw [List.findSome?_cons] at calm
    obtain ⟨answered, inside⟩ := answer_enter follows ⟨source, place, ancestors⟩ page
    rw [answered, List.foldl_cons]
    generalize renderer.visit rules page (⟨source, place, ancestors⟩, .enter) = entered
      at inside ⊢
    cases next : (rules.reply ⟨source, place, ancestors⟩ .enter).next with
    | error error => simp [RuleSet.complaint, next] at calm
    | ok step =>
      have step_eq := rules.enters _ _ next
      simp only [RuleSet.complaint, next, List.findSome?_append, Option.or_eq_none_iff,
        List.findSome?_singleton] at calm
      obtain ⟨below, leaving⟩ := calm
      simp only [View.node, kind] at step_eq
      rw [List.foldl_append, List.foldl_cons, List.foldl_nil]
      by_cases hidden : rules.hides payload.kind = true
      · simp only [hidden, if_true] at step_eq ⊢
        subst step_eq
        exact depart_eq_visit follows inside leaving
      · simp only [hidden, Bool.false_eq_true, if_false] at step_eq below ⊢
        subst step_eq
        have walked := walkAll_eq_foldl follows source (place :: ancestors) [] children entered below
        have ends := renderer.walkAll_ends follows source (place :: ancestors) [] children entered
        rw [walked, below] at ends
        simp only [walked, Walked.andThen]
        exact depart_eq_visit follows (ends.trans inside) leaving

theorem walkAll_eq_foldl (follows : renderer.Follows rules) (source : Source)
    (ancestors : List Place) (earlier : List Node) : ∀ (nodes : List Node) (page : Page),
    (visitsAll rules.hides source ancestors earlier nodes).findSome? rules.complaint = none →
    renderer.walkAll source ancestors earlier nodes page =
      .done ((visitsAll rules.hides source ancestors earlier nodes).foldl
        (renderer.visit rules) page)
  | [], page, _ => rfl
  | node :: later, page, calm => by
    rw [visitsAll, List.findSome?_append, Option.or_eq_none_iff] at calm
    rw [walkAll, visitsAll, List.foldl_append, walk_eq_foldl follows source ancestors earlier later
      node page calm.1]
    exact walkAll_eq_foldl follows source ancestors (node :: earlier) later _ calm.2

end

/-- A document is rendered just if no rule complains, and its text is that of the folded page. -/
theorem render_eq_ok_iff (follows : renderer.Follows rules) {document : Document} {text : String} :
    renderer.render document = .ok text ↔
      (∀ visit ∈ document.visits rules.hides, rules.complaint visit = none) ∧
        ((document.visits rules.hides).foldl (renderer.visit rules)
          { padding := { verbose := renderer.verbosePadding } }).text = text := by
  rw [← List.findSome?_eq_none_iff]
  cases complaint : (document.visits rules.hides).findSome? rules.complaint with
  | none =>
    have ran : renderer.run document = .done ((document.visits rules.hides).foldl
        (renderer.visit rules) { padding := { verbose := renderer.verbosePadding } }) :=
      walk_eq_foldl follows document.source [] [] [] document.root _ complaint
    simp [render, ran]
  | some error =>
    have ends := renderer.walk_ends follows document.source [] [] [] document.root
      { padding := { verbose := renderer.verbosePadding } }
    have complains : (document.root.visits rules.hides document.source [] [] []).findSome?
        rules.complaint = some error := complaint
    rw [complains] at ends
    obtain ⟨page, failed⟩ := ends.failed
    have ran : renderer.run document = .failed page error := failed
    simp [render, ran]

end Renderer

end CanonicalMarkdown
