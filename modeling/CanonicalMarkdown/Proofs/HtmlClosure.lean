import CanonicalMarkdown.Tree.HtmlClosure
import CanonicalMarkdown.Proofs.Html.RuleSet
import CanonicalMarkdown.Proofs.Markdown.RuleSet
import CanonicalMarkdown.Proofs.Tree.Content
import CanonicalMarkdown.Proofs.VisitedPage

namespace CanonicalMarkdown

theorem closesRawElement_newline : closesRawElement ['\n'] = false := by decide

theorem closesBlock_newline (first : List Char) : closesBlock first ['\n'] = false := by
  have comment : Text.occursIn "-->".toList ['\n'] = false := by decide
  have instruction : Text.occursIn "?>".toList ['\n'] = false := by decide
  have data : Text.occursIn "]]>".toList ['\n'] = false := by decide
  have declaration : '>' ∉ ['\n'] := by decide
  simp only [closesBlock, closesRawElement_newline, comment, instruction, data, declaration,
    decide_false, Bool.and_false, ite_self]

theorem detachClosure_eq_some {lines : List String} {closure : String}
    (detached : (detachClosure lines).2 = some closure) :
    (detachClosure lines).1 ≠ [] ∧ closure ≠ "\n" := by
  unfold detachClosure at detached ⊢
  cases start : lines.head? with
  | none => simp [start] at detached
  | some first =>
    cases final : lines.getLast? with
    | none => simp [start, final] at detached
    | some last =>
      simp only [start, final] at detached ⊢
      split at detached
      · rename_i closes
        obtain rfl : last = closure := Option.some.inj detached
        obtain ⟨several, closes⟩ := (Bool.and_eq_true _ _).mp closes
        have several : 2 ≤ lines.length := of_decide_eq_true several
        constructor
        · rw [if_pos (by simp [several, closes]), ← List.length_pos_iff, List.length_dropLast]
          omega
        · rintro rfl
          rw [show Text.lowerAscii "\n".toList = ['\n'] from rfl, closesBlock_newline] at closes
          contradiction
      · contradiction

namespace Markdown

theorem htmlLines_append {front : List String} (begun : front ≠ []) (more : List String) :
    htmlLines (front ++ more) =
      htmlLines front ++ more.flatMap fun line => [linePadding line, .text line] := by
  cases front with
  | nil => contradiction
  | cons first rest => simp [htmlLines]

theorem htmlBlock_strokes_detachClosure (lines : List String) :
    htmlLines (detachClosure lines).1
        ++ htmlClosure (detachClosure lines).1 (detachClosure lines).2 =
      htmlLines lines ++ htmlClosure lines none := by
  -- The padding that a closure gets as such is what it gets as a line, since it is not blank.
  have whole := detachClosure_append lines
  cases detached : (detachClosure lines).2 with
  | none =>
    rw [detached, Option.toList_none, List.append_nil] at whole
    rw [whole]
  | some closure =>
    -- lines are left in front, so the closure is no first line, which would get no padding
    obtain ⟨begun, visible⟩ := detachClosure_eq_some detached
    generalize (detachClosure lines).1 = front at whole begun ⊢
    rw [detached, Option.toList_some] at whole
    rw [← whole, htmlLines_append begun]
    simp [htmlClosure, linePadding, begun, visible]

end Markdown

namespace Html

theorem htmlBlock_strokes_detachClosure (lines : List String) :
    ((detachClosure lines).1 ++ (detachClosure lines).2.toList).map Stroke.text ++ [] =
      (lines ++ none.toList).map Stroke.text ++ [] := by
  rw [detachClosure_append, Option.toList_none, List.append_nil lines]

end Html

/-- A block of HTML, with its lines as its only content. -/
def Node.htmlBlock (lines : List String) (closure : Option String) (span : Span)
    (attributes : Attributes) : Node := ⟨.htmlBlock lines closure, span, attributes, []⟩

namespace Renderer

variable {renderer : Renderer} {rules : RuleSet}

theorem walk_childless (follows : renderer.Follows rules) {view : View}
    (childless : view.node.children = []) (calm : ∀ phase, rules.complaint (view, phase) = none)
    (page : Page) :
    renderer.walk view.source view.ancestors view.place.earlier view.place.later view.node page =
      .done (renderer.writeGap view (page.applyAll
        ((rules.reply view .enter).strokes ++ (rules.reply view .leave).strokes)).1) := by
  have visits : view.visits rules.hides = [(view, .enter), (view, .leave)] := by
    simp [View.visits_eq, childless, visitsAll]
  obtain ⟨entered, entering, inside⟩ :=
    Page.applyAll_of_levelsAfter (rules.levels_enter view page.padding.levels)
  have leaves := rules.levels_leave view page.padding.levels
  rw [← inside] at leaves
  obtain ⟨left, leaving, -⟩ := Page.applyAll_of_levelsAfter leaves
  rw [View.visits] at visits
  rw [walk_eq_foldl follows _ _ _ _ _ _ (by rw [visits]; simp [calm]), visits]
  simp only [List.foldl_cons, List.foldl_nil, visit, strokes, Page.applyAll_append, entering,
    leaving, applyAll_gapStrokes]

theorem walk_childless_congr (follows : renderer.Follows rules) (view other : View)
    (childless : view.node.children = [] ∧ other.node.children = [])
    (calm : ∀ phase, rules.complaint (view, phase) = none ∧ rules.complaint (other, phase) = none)
    (gaps : renderer.writeGap view = renderer.writeGap other)
    (strokes : (rules.reply view .enter).strokes ++ (rules.reply view .leave).strokes =
      (rules.reply other .enter).strokes ++ (rules.reply other .leave).strokes) (page : Page) :
    ∃ written,
      renderer.walk view.source view.ancestors view.place.earlier view.place.later view.node page =
        .done written ∧
      renderer.walk other.source other.ancestors other.place.earlier other.place.later other.node
        page = .done written := by
  refine ⟨_, walk_childless follows childless.1 (fun phase => (calm phase).1) page, ?_⟩
  rw [gaps, strokes]
  exact walk_childless follows childless.2 (fun phase => (calm phase).2) page

end Renderer

/-- A block of HTML is written the same, whether its closure was detached or not: at any place of
    any document, on any page, both blocks leave one page behind. -/
theorem walk_detachClosure {renderer : Renderer} {priority : Int}
    (ruled : DispatchTable.ofProviders [Markdown.provider priority] = .ok renderer.table ∨
      DispatchTable.ofProviders [Html.provider priority] = .ok renderer.table)
    (lines : List String) :
    (detachClosure lines).1 ++ (detachClosure lines).2.toList = lines ∧
      ∀ (source : Source) (ancestors : List Place) (earlier later : List Node) (span : Span)
          (attributes : Attributes) (page : Page),
        ∃ written,
          renderer.walk source ancestors earlier later
            (.htmlBlock (detachClosure lines).1 (detachClosure lines).2 span attributes) page =
              .done written ∧
          renderer.walk source ancestors earlier later
            (.htmlBlock lines none span attributes) page = .done written := by
  refine ⟨detachClosure_append lines, ?_⟩
  intro source ancestors earlier later span attributes page
  let detached : View := ⟨source, ⟨.htmlBlock (detachClosure lines).1 (detachClosure lines).2
    span attributes, earlier, later⟩, ancestors⟩
  let whole : View := ⟨source, ⟨.htmlBlock lines none span attributes, earlier, later⟩, ancestors⟩
  rcases ruled with markdown | html
  · exact Renderer.walk_childless_congr (Markdown.follows markdown) detached whole
      ⟨rfl, rfl⟩ (fun phase => by cases phase <;> exact ⟨rfl, rfl⟩) rfl
      (Markdown.htmlBlock_strokes_detachClosure lines) page
  · exact Renderer.walk_childless_congr (Html.follows html) detached whole
      ⟨rfl, rfl⟩ (fun phase => by cases phase <;> exact ⟨rfl, rfl⟩) rfl
      (Html.htmlBlock_strokes_detachClosure lines) page

theorem walk_detachClosure_comment :
    detachClosure ["<!--\n", "\n", "-->"] = (["<!--\n", "\n"], some "-->") ∧
      ∃ written, written.text = "<!--\n0  >\n1  > -->\n" ∧
        Renderer.walk ⟨Markdown.table, true, true⟩ ⟨[]⟩ [] [] []
            (.htmlBlock ["<!--\n", "\n"] (some "-->") ⟨0, 9⟩ {})
            { padding := { levels := ["> ", "  "], verbose := true } } = .done written ∧
        Renderer.walk ⟨Markdown.table, true, true⟩ ⟨[]⟩ [] [] []
            (.htmlBlock ["<!--\n", "\n", "-->"] none ⟨0, 9⟩ {})
            { padding := { levels := ["> ", "  "], verbose := true } } = .done written := by
  have detached : detachClosure ["<!--\n", "\n", "-->"] = (["<!--\n", "\n"], some "-->") := by
    decide
  refine ⟨detached, ?_⟩
  have same := (@walk_detachClosure ⟨Markdown.table, true, true⟩ 500
    (.inl (Markdown.ofProviders_provider 500)) ["<!--\n", "\n", "-->"]).2 ⟨[]⟩ [] [] [] ⟨0, 9⟩ {}
    { padding := { levels := ["> ", "  "], verbose := true } }
  rw [detached] at same
  obtain ⟨written, left, right⟩ := same
  refine ⟨written, ?_, left, right⟩
  have page : written = _ := Walked.done.inj (right.symm.trans rfl)
  rw [page]
  decide

end CanonicalMarkdown
