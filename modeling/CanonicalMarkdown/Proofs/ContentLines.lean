import CanonicalMarkdown.Proofs.PaddedLines

namespace CanonicalMarkdown

namespace Text

def isOneLine (text : String) : Bool := !text.toList.contains '\n'

def isWholeLine (text : String) : Bool :=
  text.toList.getLast? = some '\n' && !text.toList.dropLast.contains '\n'

/-- Lines in a row. The last one may lack its newline. -/
def areLines : List String → Bool
  | [] => true
  | [last] => isOneLine last || isWholeLine last
  | line :: rest => isWholeLine line && areLines rest

theorem isOneLine_iff {text : String} : isOneLine text = true ↔ '\n' ∉ text.toList := by
  simp [isOneLine]

theorem isOneLine_eq_false_iff {text : String} : isOneLine text = false ↔ '\n' ∈ text.toList := by
  simp [isOneLine]

theorem isOneLine_congr {left right : String}
    (same : '\n' ∈ left.toList ↔ '\n' ∈ right.toList) : isOneLine left = isOneLine right := by
  simp [isOneLine, same]

theorem isOneLine_append (left right : String) :
    isOneLine (left ++ right) = (isOneLine left && isOneLine right) := by
  simp [isOneLine]

theorem isWholeLine_iff {text : String} :
    isWholeLine text = true ↔ ∃ body, text.toList = body ++ ['\n'] ∧ '\n' ∉ body := by
  simp only [isWholeLine, Bool.and_eq_true, decide_eq_true_eq, Bool.not_eq_true',
    List.contains_eq_mem, decide_eq_false_iff_not]
  constructor
  · rintro ⟨last, oneLine⟩
    obtain ⟨body, split⟩ := List.getLast?_eq_some_iff.mp last
    refine ⟨body, split, ?_⟩
    rw [split, List.dropLast_concat] at oneLine
    exact oneLine
  · rintro ⟨body, split, oneLine⟩
    rw [split]
    exact ⟨by simp, by simpa using oneLine⟩

def lineEnd (line : String) : LineState := if endsLine line then .ended else .begun

theorem lineEnd_of_isWholeLine {line : String} (whole : isWholeLine line = true) :
    lineEnd line = .ended := by
  obtain ⟨body, split, _⟩ := isWholeLine_iff.mp whole
  simp [lineEnd, endsLine, split]

theorem lineEnd_of_not_mem {line : String} (oneLine : '\n' ∉ line.toList) :
    lineEnd line = .begun := by
  rw [lineEnd, Page.endsLine_of_not_mem oneLine]
  rfl

def afterLines (before : LineState) (lines : List String) : LineState :=
  lines.getLast?.elim before lineEnd

theorem areLines_head {line : String} {rest : List String} (lines : areLines (line :: rest) = true) :
    isOneLine line = true ∨ isWholeLine line = true := by
  cases rest with
  | nil => simpa [areLines] using lines
  | cons next more =>
    rw [areLines, Bool.and_eq_true] at lines
    · exact .inr lines.1
    · simp

theorem areLines_cons {line : String} {rest : List String} (some : rest ≠ [])
    (lines : areLines (line :: rest) = true) : isWholeLine line = true ∧ areLines rest = true := by
  rw [areLines, Bool.and_eq_true] at lines
  · exact lines
  · exact some

theorem areLines_of_cons {line : String} {rest : List String} (whole : isWholeLine line = true)
    (more : areLines rest = true) : areLines (line :: rest) = true := by
  cases rest with
  | nil => simp [areLines, whole]
  | cons next others =>
    rw [areLines, whole, Bool.true_and]
    · exact more
    · simp

theorem areLines_concat {lines : List String} {last : String}
    (areLines : areLines (lines ++ [last]) = true) :
    Text.areLines lines = true ∧ (isOneLine last = true ∨ isWholeLine last = true) ∧
      ∀ line ∈ lines, isWholeLine line = true := by
  induction lines with
  | nil => exact ⟨rfl, areLines_head areLines, by simp⟩
  | cons first rest ih =>
    obtain ⟨whole, more⟩ := areLines_cons (by simp) areLines
    obtain ⟨before, lastLine, wholes⟩ := ih more
    refine ⟨areLines_of_cons whole before, lastLine, ?_⟩
    intro line member
    rcases List.mem_cons.mp member with rfl | member
    · exact whole
    · exact wholes line member

theorem afterLines_of_isWholeLine {lines : List String} (before : LineState)
    (some : lines ≠ []) (wholes : ∀ line ∈ lines, isWholeLine line = true) :
    afterLines before lines = .ended := by
  have last := List.getLast?_eq_some_getLast some
  rw [afterLines, last]
  exact lineEnd_of_isWholeLine (wholes _ (List.getLast_mem some))

theorem afterLines_cons {before other : LineState} {line : String} {rest : List String}
    (some : rest ≠ []) : afterLines before (line :: rest) = afterLines other rest := by
  obtain ⟨next, more, rfl⟩ := List.exists_cons_of_ne_nil some
  simp [afterLines, List.getLast?_cons]

theorem not_mem_repeated {c : Char} (other : c ≠ '\n') (count : Nat) :
    '\n' ∉ (repeated count c).toList := by
  simp [repeated, other.symm]

end Text

open Text

theorem Tidy.flatMap {α : Type} {line : LineState} {strokes : α → List Stroke} {items : List α}
    (each : ∀ item ∈ items, Tidy line (strokes item) line) :
    Tidy line (items.flatMap strokes) line := by
  induction items with
  | nil => exact .nil
  | cons item rest ih =>
    rw [List.flatMap_cons]
    exact (each item (by simp)).append (ih fun other member => each other (by simp [member]))

theorem Tidy.map_text {texts : List String} (oneLine : ∀ text ∈ texts, '\n' ∉ text.toList) :
    Tidy .begun (texts.map .text) .begun := by
  induction texts with
  | nil => exact .nil
  | cons text rest ih =>
    exact .text (oneLine text (by simp)) (ih fun other member => oneLine other (by simp [member]))

theorem Tidy.line {line : String} (lines : isOneLine line = true ∨ isWholeLine line = true) :
    Tidy .begun [.text line] (lineEnd line) := by
  rcases lines with oneLine | whole
  · have free := isOneLine_iff.mp oneLine
    rw [lineEnd_of_not_mem free]
    exact .text free .nil
  · obtain ⟨body, split, free⟩ := isWholeLine_iff.mp whole
    rw [lineEnd_of_isWholeLine whole]
    exact .endLine split free .nil

theorem Tidy.lines {strokes : String → List Stroke}
    (each : ∀ line, isOneLine line = true ∨ isWholeLine line = true →
      Tidy .ended (strokes line) (lineEnd line)) {lines : List String}
    (areLines : areLines lines = true) :
    Tidy .ended (lines.flatMap strokes) (afterLines .ended lines) := by
  induction lines with
  | nil => exact .nil
  | cons line rest ih =>
    have first := each line (areLines_head areLines)
    rw [List.flatMap_cons]
    by_cases none : rest = []
    · subst none
      simpa [afterLines] using first
    · obtain ⟨whole, more⟩ := areLines_cons none areLines
      rw [afterLines_cons none]
      rw [lineEnd_of_isWholeLine whole] at first
      exact first.append (ih more)

theorem Tidy.firstLine {strokes : String → List Stroke}
    (each : ∀ line, isOneLine line = true ∨ isWholeLine line = true →
      Tidy .ended (strokes line) (lineEnd line)) {front : List Stroke} {line : String}
    {rest : List String} (start : Tidy .begun front (lineEnd line))
    (areLines : areLines (line :: rest) = true) :
    Tidy .begun (front ++ rest.flatMap strokes) (afterLines .begun (line :: rest)) := by
  by_cases none : rest = []
  · subst none
    simpa [afterLines] using start
  · obtain ⟨whole, more⟩ := areLines_cons none areLines
    rw [afterLines_cons none]
    rw [lineEnd_of_isWholeLine whole] at start
    exact start.append (Tidy.lines each more)

end CanonicalMarkdown
