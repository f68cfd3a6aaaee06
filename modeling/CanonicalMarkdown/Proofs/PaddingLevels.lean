import CanonicalMarkdown.Renderer

namespace CanonicalMarkdown

/-- What a stroke does to the open levels, innermost first. None can be closed when none is open. -/
def Stroke.levelsAfter : Stroke → List String → Option (List String)
  | .push level, levels => some (level :: levels)
  | .pop, [] => none
  | .pop, _ :: levels => some levels
  | _, levels => some levels

def levelsAfter : List Stroke → List String → Option (List String)
  | [], levels => some levels
  | stroke :: rest, levels => (stroke.levelsAfter levels).bind (levelsAfter rest)

@[simp] theorem levelsAfter_nil (levels : List String) : levelsAfter [] levels = some levels := rfl

@[simp] theorem levelsAfter_cons (stroke : Stroke) (rest : List Stroke) (levels : List String) :
    levelsAfter (stroke :: rest) levels =
      (stroke.levelsAfter levels).bind (levelsAfter rest) := rfl

theorem levelsAfter_append (first second : List Stroke) (levels : List String) :
    levelsAfter (first ++ second) levels =
      (levelsAfter first levels).bind (levelsAfter second) := by
  induction first generalizing levels with
  | nil => rfl
  | cons stroke rest ih =>
    cases after : stroke.levelsAfter levels with
    | none => simp [after]
    | some next => simp [after, ih]

def KeepsLevels (strokes : List Stroke) : Prop :=
  ∀ levels, levelsAfter strokes levels = some levels

theorem KeepsLevels.nil : KeepsLevels [] := fun _ => rfl

theorem KeepsLevels.append {first second : List Stroke} (left : KeepsLevels first)
    (right : KeepsLevels second) : KeepsLevels (first ++ second) := by
  intro levels
  rw [levelsAfter_append, left levels]
  exact right levels

theorem KeepsLevels.cons {stroke : Stroke} {rest : List Stroke}
    (one : KeepsLevels [stroke]) (more : KeepsLevels rest) : KeepsLevels (stroke :: rest) :=
  KeepsLevels.append one more

theorem KeepsLevels.text (text : String) : KeepsLevels [.text text] := fun _ => rfl

theorem KeepsLevels.padding : KeepsLevels [.padding] := fun _ => rfl

theorem KeepsLevels.blankPadding : KeepsLevels [.blankPadding] := fun _ => rfl

theorem KeepsLevels.flatMap {α : Type} {strokes : α → List Stroke}
    (each : ∀ item, KeepsLevels (strokes item)) (items : List α) :
    KeepsLevels (items.flatMap strokes) := by
  induction items with
  | nil => exact .nil
  | cons item rest ih =>
    rw [List.flatMap_cons]
    exact (each item).append ih

theorem KeepsLevels.map_text (texts : List String) : KeepsLevels (texts.map .text) := by
  induction texts with
  | nil => exact .nil
  | cons text rest ih => exact (KeepsLevels.text text).append ih

namespace Page

@[simp] theorem padding_write (page : Page) (text : String) :
    (page.write text).padding = page.padding := by
  unfold write
  split <;> rfl

@[simp] theorem levels_writePadding (page : Page) :
    page.writePadding.padding.levels = page.padding.levels :=
  Padding.levels_next page.padding

@[simp] theorem levels_writeBlankPadding (page : Page) :
    page.writeBlankPadding.padding.levels = page.padding.levels :=
  Padding.levels_next page.padding

@[simp] theorem levels_writeGap (page : Page) (gap : Gap) :
    (page.writeGap gap).padding.levels = page.padding.levels := by
  unfold writeGap
  by_cases atStart : page.onNewLine = true <;> by_cases blank : gap = .blankLine <;>
    simp [atStart, blank]

theorem depth_truncate_le (page : Page) (mark : Nat) :
    (page.truncate mark).padding.depth ≤ mark := by
  have depth := page.padding.depth_truncate mark
  simp only [truncate]
  omega

theorem truncate_of_levels {page entered : Page}
    (same : page.padding.levels = entered.padding.levels) :
    page.truncate entered.padding.depth = page := by
  have depth : entered.padding.depth = page.padding.depth := by
    rw [Padding.depth, Padding.depth, same]
  rw [truncate, depth, Padding.truncate_depth]

theorem apply_of_levelsAfter {page : Page} {stroke : Stroke} {levels : List String}
    (after : stroke.levelsAfter page.padding.levels = some levels) :
    ∃ next, page.apply stroke = .ok next ∧ next.padding.levels = levels := by
  cases stroke with
  | text text => exact ⟨page.write text, rfl, by simpa [Stroke.levelsAfter] using after⟩
  | padding => exact ⟨page.writePadding, rfl, by simpa [Stroke.levelsAfter] using after⟩
  | blankPadding => exact ⟨page.writeBlankPadding, rfl, by simpa [Stroke.levelsAfter] using after⟩
  | push level => exact ⟨_, rfl, Option.some.inj after⟩
  | pop =>
    cases opened : page.padding.levels with
    | nil => simp [Stroke.levelsAfter, opened] at after
    | cons level rest =>
      have closed : rest = levels := by simpa [Stroke.levelsAfter, opened] using after
      refine ⟨_, by simp only [apply, Padding.pop, opened]; rfl, closed⟩

theorem applyAll_of_levelsAfter {strokes : List Stroke} {page : Page} {levels : List String}
    (after : levelsAfter strokes page.padding.levels = some levels) :
    ∃ next, page.applyAll strokes = (next, none) ∧ next.padding.levels = levels := by
  induction strokes generalizing page with
  | nil => exact ⟨page, rfl, by simpa using after⟩
  | cons stroke rest ih =>
    rw [levelsAfter_cons] at after
    obtain ⟨between, first, more⟩ := Option.bind_eq_some_iff.mp after
    obtain ⟨next, applied, level⟩ := apply_of_levelsAfter first
    rw [← level] at more
    obtain ⟨last, rest, final⟩ := ih more
    exact ⟨last, by simp only [applyAll, applied, rest], final⟩

end Page

theorem Renderer.levels_writeGap (renderer : Renderer) (view : View) (page : Page) :
    (renderer.writeGap view page).padding.levels = page.padding.levels := by
  unfold Renderer.writeGap
  split
  · rfl
  · split
    · rw [Page.levels_writeGap]
    · rfl

end CanonicalMarkdown
