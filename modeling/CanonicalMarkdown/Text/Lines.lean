namespace CanonicalMarkdown.Text

/-- Lines with their newlines; the last line may lack one, and an empty text has no line. -/
def lines : List Char → List (List Char)
  | [] => []
  | c :: rest =>
    if c = '\n' then [c] :: lines rest
    else match lines rest with
      | [] => [[c]]
      | line :: more => (c :: line) :: more

theorem flatten_lines (text : List Char) : (lines text).flatten = text := by
  fun_induction lines text <;> simp_all

def firstLine (text : List Char) : List Char := text.takeWhile (· ≠ '\n')

def linesOf (text : String) : List String := (lines text.toList).map String.ofList

def endsLine (text : String) : Bool := text.toList.getLast? = some '\n'

def occursIn (part : List Char) : List Char → Bool
  | [] => part.isEmpty
  | c :: rest => part.isPrefixOf (c :: rest) || occursIn part rest

def repeated (count : Nat) (c : Char) : String := String.ofList (List.replicate count c)

def lowerAscii (text : List Char) : List Char := text.map Char.toLower

def isHexDigit (c : Char) : Bool :=
  c.isDigit || ('a' ≤ c && c ≤ 'f') || ('A' ≤ c && c ≤ 'F')

def hexValue (c : Char) : Nat :=
  if c.isDigit then c.toNat - '0'.toNat else c.toLower.toNat - 'a'.toNat + 10

theorem firstLine_append {front : List Char} (oneLine : '\n' ∉ front) (rest : List Char) :
    firstLine (front ++ rest) = front ++ firstLine rest := by
  apply List.takeWhile_append_of_pos
  intro c member
  simp only [decide_eq_true_eq]
  rintro rfl
  exact oneLine member

theorem firstLine_of_not_mem {text : List Char} (oneLine : '\n' ∉ text) :
    firstLine text = text := by
  simpa [firstLine] using firstLine_append oneLine []

theorem firstLine_append_newline {body : List Char} (oneLine : '\n' ∉ body) (rest : List Char) :
    firstLine (body ++ '\n' :: rest) = body := by
  rw [firstLine_append oneLine, firstLine, List.takeWhile_cons_of_neg (by simp)]
  simp

theorem not_mem_firstLine (text : List Char) : '\n' ∉ firstLine text := by
  intro member
  simpa using List.all_eq_true.mp List.all_takeWhile _ member

theorem firstLine_append_of_mem {front : List Char} (ended : '\n' ∈ front) (rest : List Char) :
    firstLine (front ++ rest) = firstLine front := by
  obtain ⟨line, behind, rfl, oneLine⟩ := List.eq_append_cons_of_mem ended
  rw [List.append_assoc, List.cons_append, firstLine_append_newline oneLine,
    firstLine_append_newline oneLine]

end CanonicalMarkdown.Text
