import CanonicalMarkdown.Proofs.RuleSet

namespace CanonicalMarkdown

namespace Page

/-- The second page holds what the first holds, and behind it pieces that are not empty. -/
def Grows (page next : Page) : Prop := ∃ more, next.pieces = more ++ page.pieces ∧ "" ∉ more

namespace Grows

variable {page next : Page}

theorem ofPieces (same : next.pieces = page.pieces) : page.Grows next := ⟨[], same, by simp⟩

theorem refl (page : Page) : page.Grows page := ofPieces rfl

theorem trans {last : Page} (first : page.Grows next) (second : next.Grows last) :
    page.Grows last := by
  obtain ⟨more, grown, some⟩ := first
  obtain ⟨others, grownAgain, someOther⟩ := second
  exact ⟨others ++ more, by rw [grownAgain, grown, List.append_assoc], by simp [some, someOther]⟩

theorem text (grows : page.Grows next) : ∃ more, next.text = page.text ++ more := by
  obtain ⟨more, grown, _⟩ := grows
  exact ⟨String.join more.reverse, by simp [Page.text, grown, String.join_append]⟩

theorem filled_iff (grows : page.Grows next) : "" ∉ next.pieces ↔ "" ∉ page.pieces := by
  obtain ⟨more, grown, some⟩ := grows
  rw [grown]
  simp [some]

end Grows

variable (page : Page)

theorem grows_write (text : String) : page.Grows (page.write text) := by
  unfold write
  split
  · exact .refl page
  · rename_i some
    have filled : text ≠ "" := fun empty => some (by rw [empty]; rfl)
    exact ⟨[text], rfl, by simp [filled.symm]⟩

theorem grows_writeAll (texts : List String) : page.Grows (page.writeAll texts) := by
  unfold writeAll
  induction texts generalizing page with
  | nil => exact .refl page
  | cons text rest ih => exact (page.grows_write text).trans (ih _)

theorem grows_writePadding : page.Grows page.writePadding := page.grows_writeAll _

theorem grows_writeBlankPadding : page.Grows page.writeBlankPadding := page.grows_writeAll _

theorem grows_writeGap (gap : Gap) : page.Grows (page.writeGap gap) := by
  unfold Page.writeGap
  have begun : page.Grows (if page.onNewLine then page.writeBlankPadding else page) := by
    split
    · exact page.grows_writeBlankPadding
    · exact .refl page
  have parted (page : Page) :
      page.Grows (if gap = .blankLine then (page.write "\n").writeBlankPadding else page) := by
    split
    · exact (page.grows_write "\n").trans (grows_writeBlankPadding _)
    · exact .refl page
  exact begun.trans ((parted _).trans ((grows_write _ _).trans (grows_writePadding _)))

theorem grows_applyAll (strokes : List Stroke) : page.Grows (page.applyAll strokes).1 := by
  induction strokes generalizing page with
  | nil => exact .refl page
  | cons stroke rest ih =>
    cases stroke with
    | text text => exact (page.grows_write text).trans (ih _)
    | padding => exact page.grows_writePadding.trans (ih _)
    | blankPadding => exact page.grows_writeBlankPadding.trans (ih _)
    | push level => exact (Grows.ofPieces rfl).trans (ih _)
    | pop =>
      rw [applyAll, apply]
      cases page.padding.pop with
      | error error => exact .refl page
      | ok padding => exact (Grows.ofPieces rfl).trans (ih { page with padding })

theorem grows_answer (reply : Reply) : page.Grows (page.answer reply).1 := by
  have grows := page.grows_applyAll reply.strokes
  unfold answer
  generalize page.applyAll reply.strokes = applied at grows ⊢
  obtain ⟨next, error⟩ := applied
  cases error <;> exact grows

theorem onNewLine_eq_endsLine {page : Page} (filled : "" ∉ page.pieces) :
    page.onNewLine = Text.endsLine page.text := by
  obtain ⟨pieces, padding⟩ := page
  cases pieces with
  | nil => rfl
  | cons last rest =>
    have some : last.toList ≠ [] := fun empty => filled (by simp [String.toList_eq_nil_iff.mp empty])
    have split : Page.text ⟨last :: rest, padding⟩ = String.join rest.reverse ++ last := by
      simp [Page.text]
    rw [split, Text.endsLine, String.toList_append, List.getLast?_append,
      List.getLast?_eq_some_getLast some, Option.some_or, ← List.getLast?_eq_some_getLast some]
    rfl

end Page

theorem Walked.grows_andThen {page : Page} {walked : Walked} {next : Page → Walked}
    (grows : page.Grows walked.page) (more : ∀ between : Page, between.Grows (next between).page) :
    page.Grows (walked.andThen next).page := by
  cases walked with
  | done between => exact grows.trans (more between)
  | stopped _ | failed _ _ => exact grows

namespace Renderer

variable {renderer : Renderer} {rules : RuleSet}

theorem grows_answer (follows : renderer.Follows rules) (view : View) (phase : Phase) (page : Page) :
    page.Grows (renderer.answer view phase page).1 := by
  rw [follows]
  exact page.grows_answer _

theorem grows_writeGap (renderer : Renderer) (view : View) (page : Page) :
    page.Grows (renderer.writeGap view page) := by
  unfold writeGap
  split
  · exact .refl page
  · dsimp only
    split
    · exact page.grows_writeGap _
    · exact .refl page

theorem grows_depart (follows : renderer.Follows rules) (view : View) (mark : Nat) (page : Page) :
    page.Grows (renderer.depart view mark page).page := by
  have left := grows_answer follows view .leave page
  unfold depart
  generalize renderer.answer view .leave page = answer at left ⊢
  obtain ⟨next, error | (_ | _ | _)⟩ := answer
  · exact left
  · exact left.trans ((Page.Grows.ofPieces rfl).trans (renderer.grows_writeGap _ _))
  · exact left.trans ((Page.Grows.ofPieces rfl).trans (renderer.grows_writeGap _ _))
  · exact left

mutual

theorem grows_walk (follows : renderer.Follows rules) (source : Source) (ancestors : List Place)
    (earlier later : List Node) : ∀ (node : Node) (page : Page),
    page.Grows (renderer.walk source ancestors earlier later node page).page
  | ⟨payload, span, attributes, children⟩, page => by
    let place : Place := ⟨⟨payload, span, attributes, children⟩, earlier, later⟩
    have entered := grows_answer follows ⟨source, place, ancestors⟩ .enter page
    rw [walk]
    generalize renderer.answer _ .enter page = answer at entered ⊢
    obtain ⟨next, error | (_ | _ | _)⟩ := answer
    · exact entered
    · have below := grows_walkAll follows source (place :: ancestors) [] children next
      exact Walked.grows_andThen (entered.trans below) (grows_depart follows _ _)
    · exact entered.trans (grows_depart follows _ _ next)
    · exact entered

theorem grows_walkAll (follows : renderer.Follows rules) (source : Source) (ancestors : List Place)
    (earlier : List Node) : ∀ (nodes : List Node) (page : Page),
    page.Grows (renderer.walkAll source ancestors earlier nodes page).page
  | [], page => .refl page
  | node :: later, page => by
    rw [walkAll]
    exact Walked.grows_andThen (grows_walk follows source ancestors earlier later node page)
      (grows_walkAll follows source ancestors (node :: earlier) later)

end

end Renderer

end CanonicalMarkdown
