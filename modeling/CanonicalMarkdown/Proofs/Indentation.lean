import CanonicalMarkdown.Text.Lines
import CanonicalMarkdown.Unicode.WhiteSpace

namespace CanonicalMarkdown

/-- Where a text stops: on a line that was begun, if only with its padding, or right behind the
    newline that ended its last line. -/
inductive LineState
  | begun | ended
deriving DecidableEq, Repr

namespace Text

/-- Puts a padding in front of every line but the first. A line that was begun has it even if
    nothing else stands on it. -/
def indent (padding : List Char) (line : LineState) (text : List Char) : List Char :=
  padding.intercalate (lines text) ++
    (if line = .begun ∧ text.getLast? = some '\n' then padding else [])

theorem intercalate_nothing (lines : List (List Char)) :
    ([] : List Char).intercalate lines = lines.flatten := by
  induction lines with
  | nil => rfl
  | cons line rest ih =>
    cases rest with
    | nil => simp
    | cons next more => rw [List.intercalate_cons_of_ne_nil (by simp), ih]; simp

theorem indent_nothing (line : LineState) (text : List Char) : indent [] line text = text := by
  rw [indent, intercalate_nothing, flatten_lines]
  split <;> exact List.append_nil text

def spread (padding text : List Char) : List Char :=
  text.flatMap fun c => if c = '\n' then c :: padding else [c]

theorem spread_append (padding left right : List Char) :
    spread padding (left ++ right) = spread padding left ++ spread padding right :=
  List.flatMap_append

theorem spread_newline (padding : List Char) : spread padding ['\n'] = '\n' :: padding := by
  simp [spread]

theorem spread_of_not_mem {text : List Char} (padding : List Char) (oneLine : '\n' ∉ text) :
    spread padding text = text := by
  induction text with
  | nil => rfl
  | cons c rest ih =>
    have other : c ≠ '\n' := fun same => oneLine (by simp [same])
    have more := ih fun member => oneLine (by simp [member])
    rw [spread, List.flatMap_cons, if_neg other]
    exact congrArg (c :: ·) more

theorem lines_ne_nil {text : List Char} (some : text ≠ []) : lines text ≠ [] := by
  intro none
  have flattened := flatten_lines text
  rw [none] at flattened
  exact some flattened.symm

theorem lines_newline (rest : List Char) : lines ('\n' :: rest) = ['\n'] :: lines rest := by
  rw [lines, if_pos rfl]

theorem lines_cons {c : Char} {rest line : List Char} {more : List (List Char)}
    (other : c ≠ '\n') (split : lines rest = line :: more) :
    lines (c :: rest) = (c :: line) :: more := by
  rw [lines, if_neg other, split]

theorem lines_of_not_mem {text : List Char} (oneLine : '\n' ∉ text) (some : text ≠ []) :
    lines text = [text] := by
  induction text with
  | nil => contradiction
  | cons c rest ih =>
    have other : c ≠ '\n' := fun same => oneLine (by simp [same])
    by_cases none : rest = []
    · subst none
      simp [lines, other]
    · exact lines_cons other (ih (fun member => oneLine (by simp [member])) none)

theorem lines_of_mem {text : List Char} (newline : '\n' ∈ text) :
    ∃ line more, lines text = line :: more ∧ '\n' ∈ line := by
  induction text with
  | nil => simp at newline
  | cons c rest ih =>
    by_cases same : c = '\n'
    · subst same
      exact ⟨['\n'], lines rest, lines_newline rest, by simp⟩
    · have later : '\n' ∈ rest := by simpa [Ne.symm same] using newline
      obtain ⟨line, more, split, member⟩ := ih later
      exact ⟨c :: line, more, lines_cons same split, by simp [member]⟩

theorem lines_append_newline {front : List Char} (oneLine : '\n' ∉ front) (behind : List Char) :
    lines (front ++ '\n' :: behind) = (front ++ ['\n']) :: lines behind := by
  induction front with
  | nil => exact lines_newline behind
  | cons c front ih =>
    have other : c ≠ '\n' := fun same => oneLine (by simp [same])
    exact lines_cons other (ih fun member => oneLine (by simp [member]))

theorem indent_begun (padding text : List Char) :
    indent padding .begun text = spread padding text := by
  induction text with
  | nil => simp [indent, spread, lines]
  | cons c rest ih =>
    rw [spread, List.flatMap_cons]
    change _ = _ ++ spread padding rest
    rw [← ih]
    cases rest with
    | nil => by_cases newline : c = '\n' <;> simp [indent, lines, newline]
    | cons next others =>
      have more : lines (next :: others) ≠ [] := lines_ne_nil (by simp)
      by_cases newline : c = '\n'
      · simp [indent, newline, lines_newline, List.intercalate_cons_of_ne_nil more]
      · obtain ⟨line, later, split⟩ := List.exists_cons_of_ne_nil more
        simp [indent, newline, lines_cons newline split, split, List.intercalate_cons_cons_left]

theorem indent_ended (padding body : List Char) :
    indent padding .ended (body ++ ['\n']) = spread padding body ++ ['\n'] := by
  have begun := indent_begun padding (body ++ ['\n'])
  rw [spread_append, spread_newline] at begun
  have cut : padding.intercalate (lines (body ++ ['\n'])) ++ padding =
      (spread padding body ++ ['\n']) ++ padding := by
    simpa [indent] using begun
  simpa [indent] using List.append_cancel_right cut

theorem indent_append_oneLine (padding text : List Char) {more : List Char}
    (oneLine : '\n' ∉ more) :
    indent padding .begun (text ++ more) = indent padding .begun text ++ more := by
  rw [indent_begun, indent_begun, spread_append, spread_of_not_mem padding oneLine]

theorem indent_endLine (padding text : List Char) {more : List Char} (oneLine : '\n' ∉ more) :
    indent padding .ended (text ++ (more ++ ['\n'])) =
      indent padding .begun text ++ (more ++ ['\n']) := by
  rw [← List.append_assoc, indent_ended, indent_begun, spread_append,
    spread_of_not_mem padding oneLine, List.append_assoc]

theorem indent_startLine (padding text : List Char) {more : List Char} (oneLine : '\n' ∉ more) :
    indent padding .begun ((text ++ ['\n']) ++ more) =
      indent padding .ended (text ++ ['\n']) ++ (padding ++ more) := by
  rw [indent_ended, indent_begun, spread_append, spread_append, spread_newline,
    spread_of_not_mem padding oneLine]
  simp

theorem indent_blankLine (padding text : List Char) {more : List Char} (oneLine : '\n' ∉ more) :
    indent padding .ended ((text ++ ['\n']) ++ (more ++ ['\n'])) =
      indent padding .ended (text ++ ['\n']) ++ padding ++ (more ++ ['\n']) := by
  rw [indent_endLine padding _ oneLine, indent_begun, spread_append, spread_newline, indent_ended]
  simp

theorem splitOn_of_not_mem {text : List Char} (oneLine : '\n' ∉ text) :
    text.splitOn '\n' = [text] := by
  rw [List.splitOn_eq_splitOnP]
  apply List.splitOnP_eq_singleton
  intro c member
  simp only [beq_eq_false_iff_ne]
  rintro rfl
  exact oneLine member

theorem splitOn_append_newline (left right : List Char) :
    (left ++ '\n' :: right).splitOn '\n' = left.splitOn '\n' ++ right.splitOn '\n' := by
  simp only [List.splitOn_eq_splitOnP]
  exact List.splitOnP_append_cons left right (by simp)

def trimLines (text : List Char) : List (List Char) := (text.splitOn '\n').map Unicode.trimEnd

theorem trimLines_of_not_mem {text : List Char} (oneLine : '\n' ∉ text) :
    trimLines text = [Unicode.trimEnd text] := by
  rw [trimLines, splitOn_of_not_mem oneLine]
  rfl

theorem trimLines_append_newline (left right : List Char) :
    trimLines (left ++ '\n' :: right) = trimLines left ++ trimLines right := by
  rw [trimLines, splitOn_append_newline, List.map_append]
  rfl

theorem trimEnd_append_blanks {blanks : List Char} (text : List Char)
    (blank : ∀ c ∈ blanks, Unicode.isWhiteSpace c = true) :
    Unicode.trimEnd (text ++ blanks) = Unicode.trimEnd text := by
  have dropped : ∀ c ∈ blanks.reverse, Unicode.isWhiteSpace c = true := by
    intro c member
    exact blank c (List.mem_reverse.mp member)
  unfold Unicode.trimEnd Unicode.dropEndWhile
  rw [List.reverse_append, List.dropWhile_append_of_pos dropped]

theorem trimLines_append_blanks {blanks : List Char}
    (blank : ∀ c ∈ blanks, Unicode.isWhiteSpace c = true) (oneLine : '\n' ∉ blanks)
    (text : List Char) : trimLines (text ++ blanks) = trimLines text := by
  by_cases newline : '\n' ∈ text
  · obtain ⟨left, right, rfl⟩ := List.append_of_mem newline
    rw [List.append_assoc, List.cons_append, trimLines_append_newline, trimLines_append_newline,
      trimLines_append_blanks blank oneLine right]
  · have both : '\n' ∉ text ++ blanks := by simp [newline, oneLine]
    rw [trimLines_of_not_mem both, trimLines_of_not_mem newline, trimEnd_append_blanks text blank]
termination_by text.length

theorem trimEnd_append_rest (text : List Char) :
    ∃ blanks, text = Unicode.trimEnd text ++ blanks ∧
      ∀ c ∈ blanks, Unicode.isWhiteSpace c = true := by
  refine ⟨(text.reverse.takeWhile Unicode.isWhiteSpace).reverse, ?_, ?_⟩
  · rw [Unicode.trimEnd, Unicode.dropEndWhile, ← List.reverse_append,
      List.takeWhile_append_dropWhile, List.reverse_reverse]
  · intro c member
    exact List.all_eq_true.mp List.all_takeWhile c (List.mem_reverse.mp member)

/-- Whatever is written behind the texts, they differ only in white space at the ends of lines. -/
def SameLines (left right : List Char) : Prop :=
  ∀ rest, trimLines (left ++ rest) = trimLines (right ++ rest)

namespace SameLines

variable {left middle right : List Char}

theorem refl (text : List Char) : SameLines text text := fun _ => rfl

theorem symm (same : SameLines left right) : SameLines right left := fun rest => (same rest).symm

theorem trans (first : SameLines left middle) (second : SameLines middle right) :
    SameLines left right := fun rest => (first rest).trans (second rest)

theorem append (same : SameLines left right) (text : List Char) :
    SameLines (left ++ text) (right ++ text) := by
  intro rest
  rw [List.append_assoc, List.append_assoc]
  exact same (text ++ rest)

theorem trimmed (same : SameLines left right) : trimLines left = trimLines right := by
  simpa using same []

theorem trimEnd (text : List Char) {line : List Char} (oneLine : '\n' ∉ line) :
    SameLines (text ++ (Unicode.trimEnd line ++ ['\n'])) (text ++ (line ++ ['\n'])) := by
  intro rest
  obtain ⟨blanks, split, blank⟩ := trimEnd_append_rest line
  have blanksOneLine : '\n' ∉ blanks := by
    intro member
    exact oneLine (by rw [split]; exact List.mem_append_right _ member)
  have left : text ++ (Unicode.trimEnd line ++ ['\n']) ++ rest =
      (text ++ Unicode.trimEnd line) ++ '\n' :: rest := by simp
  have right : text ++ (line ++ ['\n']) ++ rest =
      ((text ++ Unicode.trimEnd line) ++ blanks) ++ '\n' :: rest := by
    conv => lhs; rw [split]
    simp
  rw [left, right, trimLines_append_newline, trimLines_append_newline,
    trimLines_append_blanks blank blanksOneLine]

theorem trimEnd_append (text : List Char) {outer inner : List Char} (outerOneLine : '\n' ∉ outer)
    (innerOneLine : '\n' ∉ inner) :
    SameLines (text ++ (Unicode.trimEnd (outer ++ inner) ++ ['\n']))
      (text ++ outer ++ (Unicode.trimEnd inner ++ ['\n'])) := by
  have oneLine : '\n' ∉ outer ++ inner := by simp [outerOneLine, innerOneLine]
  have whole := trimEnd text oneLine
  have part := trimEnd (text ++ outer) innerOneLine
  refine whole.trans ?_
  simpa using part.symm

end SameLines

end Text

end CanonicalMarkdown
