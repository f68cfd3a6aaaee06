import CanonicalMarkdown.Text.Lines
import CanonicalMarkdown.Proofs.Tree.CheckedSource
import CanonicalMarkdown.Proofs.Tree.OpenColumns

namespace CanonicalMarkdown

open Text

/-- The offset of the marker of an item; spaces in front of it may be part of the item. -/
def Source.markerOffset (source : Source) (start : Nat) : Nat :=
  start + leadingSpaces (source.after start)

section lines

variable {source : Source} {front middle back line more : List Char}

theorem Source.before_append (split : source.chars = front ++ back) :
    source.before (byteLength front) = front := by
  simp [Source.before, split]

theorem Source.after_append (split : source.chars = front ++ back) :
    source.after (byteLength front) = back := by
  simp [Source.after, split]

theorem Source.lineBefore_append (split : source.chars = front ++ (middle ++ back))
    (oneLine : '\n' ∉ middle) :
    source.lineBefore (byteLength (front ++ middle)) =
      source.lineBefore (byteLength front) ++ middle := by
  have whole : source.chars = (front ++ middle) ++ back := by rw [split, List.append_assoc]
  rw [lineBefore, before_append whole, lineBefore, before_append split]
  exact Checked.reverse_takeWhile_append front oneLine

theorem insideQuotes_append (noQuote : '>' ∉ more) (visible : more.head? ≠ some ' ') :
    insideQuotes (line ++ more) = insideQuotes line ++ more := by
  unfold insideQuotes
  by_cases quoted : '>' ∈ line
  · rw [if_pos (List.mem_append_left more quoted), if_pos quoted,
      Checked.reverse_takeWhile_append line noQuote]
    generalize (line.reverse.takeWhile _).reverse = behind
    cases behind with
    | nil =>
      rw [List.nil_append]
      split <;> simp_all
    | cons char rest =>
      by_cases space : char = ' '
      · subst space
        rfl
      · simp [space]
  · rw [if_neg quoted, if_neg (by simp [quoted, noQuote])]

theorem insideQuotes_quote (front : List Char) (spaced : Bool) :
    insideQuotes (front ++ '>' :: (if spaced then [' '] else [])) = [] := by
  have last : '>' ∉ if spaced then [' '] else [] := by cases spaced <;> decide
  rw [insideQuotes, if_pos (by simp), Checked.reverse_takeWhile_last front last]
  cases spaced <;> rfl

theorem Source.column_append (split : source.chars = front ++ (middle ++ back))
    (oneLine : '\n' ∉ middle) (noQuote : '>' ∉ middle) (visible : middle.head? ≠ some ' ') :
    source.column (byteLength (front ++ middle)) =
      source.column (byteLength front) + middle.length := by
  rw [column, lineBefore_append split oneLine, insideQuotes_append noQuote visible,
    List.length_append, column]

theorem Source.after_markerOffset (source : Source) (start : Nat) :
    source.after (source.markerOffset start) =
      (source.after start).drop (leadingSpaces (source.after start)) := by
  unfold markerOffset
  cases dropped : dropBytes start source.chars with
  | none =>
    have none : source.after start = [] := by simp [after, dropped]
    rw [none]
    exact none
  | some rest =>
    obtain ⟨front, split, rfl⟩ := dropBytes_eq_some_iff.mp dropped
    have parts : rest = rest.takeWhile (· = ' ') ++ rest.dropWhile (· = ' ') :=
      List.takeWhile_append_dropWhile.symm
    have further : source.chars =
        (front ++ rest.takeWhile (· = ' ')) ++ rest.dropWhile (· = ' ') := by
      rw [List.append_assoc, ← parts, split]
    rw [after_append split, ← Checked.byteLength_leadingSpaces, ← byteLength_append,
      after_append further, Checked.byteLength_leadingSpaces]
    exact (List.drop_left.symm.trans (congrArg (List.drop (leadingSpaces rest)) parts.symm))

theorem Source.itemStart_eq (source : Source) (start : Nat) :
    source.itemStart start =
      let marker := source.markerOffset start
      let width := markerWidth (source.after marker)
      ⟨source.column marker, width,
        contentSpace (firstLine ((dropBytes width (source.after marker)).getD []))⟩ := by
  simp only [after_markerOffset]
  rfl

end lines

def IsMark (mark : List Char) : Prop :=
  ∃ digits sign, mark = digits ++ [sign] ∧ (∀ digit ∈ digits, digit.isDigit = true) ∧
    sign ∈ ['-', '+', '*', '.', ')']

/-- The blanks between a mark and content that is not indented code. -/
structure IsGap (gap : List Char) : Prop where
  blank : ∀ char ∈ gap, char = ' ' ∨ char = '\t'
  some : gap ≠ []
  short : gap.length ≤ 4

namespace IsMark

variable {mark : List Char}

theorem markerWidth (isMark : IsMark mark) (rest : List Char) :
    markerWidth (mark ++ rest) = mark.length := by
  obtain ⟨digits, sign, rfl, areDigits, isSign⟩ := isMark
  have other : ∀ sign ∈ ['-', '+', '*', '.', ')'], ¬ sign.isDigit = true := by simp
  rw [CanonicalMarkdown.markerWidth, List.append_assoc, List.takeWhile_append_of_pos areDigits,
    List.singleton_append, List.takeWhile_cons_of_neg (other sign isSign)]
  simp

theorem mem (isMark : IsMark mark) {char : Char} (member : char ∈ mark) :
    0x21 ≤ char.toNat ∧ char.toNat ≤ 0x39 := by
  obtain ⟨digits, sign, rfl, areDigits, isSign⟩ := isMark
  have signs : ∀ sign ∈ ['-', '+', '*', '.', ')'], 0x21 ≤ sign.toNat ∧ sign.toNat ≤ 0x39 := by
    simp
  rcases List.mem_append.mp member with digit | last
  · have isDigit := areDigits char digit
    simp only [Char.isDigit, Bool.and_eq_true, decide_eq_true_eq] at isDigit
    exact ⟨Nat.le_trans (by decide) isDigit.1, isDigit.2⟩
  · rw [List.mem_singleton.mp last]
    exact signs sign isSign

theorem not_mem (isMark : IsMark mark) {char : Char} (other : 0x39 < char.toNat ∨ char.toNat < 0x21) :
    char ∉ mark := by
  intro member
  have between := isMark.mem member
  omega

theorem byteLength (isMark : IsMark mark) : Text.byteLength mark = mark.length := by
  have single : ∀ char ∈ mark, char.utf8Size = 1 := by
    intro char member
    rw [Char.utf8Size, if_pos]
    exact UInt32.le_iff_toNat_le.mpr (Nat.le_trans (isMark.mem member).2 (by decide))
  clear isMark
  induction mark with
  | nil => rfl
  | cons char rest ih =>
    rw [byteLength_cons, single char (by simp), ih fun other member => single other (by simp [member]),
      List.length_cons, Nat.add_comm]

theorem dropBytes (isMark : IsMark mark) (rest : List Char) :
    Text.dropBytes mark.length (mark ++ rest) = some rest := by
  rw [← isMark.byteLength]
  exact dropBytes_byteLength_append mark rest

theorem head (isMark : IsMark mark) (rest : List Char) :
    ∃ char, (mark ++ rest).head? = some char ∧ Unicode.isWhiteSpace char = false := by
  obtain ⟨char, others, whole⟩ : ∃ char others, mark = char :: others := by
    obtain ⟨digits, sign, rfl, _⟩ := isMark
    cases digits <;> simp
  have between := isMark.mem (show char ∈ mark by simp [whole])
  refine ⟨char, by simp [whole], ?_⟩
  simp [Unicode.isWhiteSpace, Unicode.inRanges, Unicode.whiteSpace]
  omega

end IsMark

theorem leadingSpaces_append {rest : List Char} (visible : rest.head? ≠ some ' ') (count : Nat) :
    leadingSpaces (List.replicate count ' ' ++ rest) = count := by
  have none : rest.takeWhile (· = ' ') = [] := by
    cases rest with
    | nil => rfl
    | cons char rest => exact List.takeWhile_cons_of_neg (by simpa using visible)
  rw [leadingSpaces, List.takeWhile_append_of_pos (by simp), none, List.append_nil,
    List.length_replicate]

namespace IsGap

variable {gap : List Char}

theorem not_mem (isGap : IsGap gap) {char : Char} (other : char ≠ ' ' ∧ char ≠ '\t') : char ∉ gap := by
  intro member
  rcases isGap.blank char member with same | same
  · exact other.1 same
  · exact other.2 same

theorem eq_replicate (isGap : IsGap gap) (noTab : '\t' ∉ gap) :
    gap = List.replicate gap.length ' ' := by
  refine List.eq_replicate_of_mem fun char member => ?_
  refine (isGap.blank char member).resolve_right ?_
  rintro rfl
  exact noTab member

theorem leadingSpaces_append (isGap : IsGap gap) {rest : List Char}
    (visible : rest.head? ≠ .some ' ') :
    leadingSpaces (gap ++ rest) ≤ gap.length ∧
      (leadingSpaces (gap ++ rest) = gap.length ↔ '\t' ∉ gap) := by
  by_cases noTab : '\t' ∈ gap
  · obtain ⟨spaces, behind, split, first⟩ := List.eq_append_cons_of_mem noTab
    have blanks : spaces = List.replicate spaces.length ' ' := by
      refine List.eq_replicate_of_mem fun char member => ?_
      refine (isGap.blank char (by simp [split, member])).resolve_right ?_
      rintro rfl
      exact first member
    have count : leadingSpaces (gap ++ rest) = spaces.length := by
      rw [split, List.append_assoc, blanks, CanonicalMarkdown.leadingSpaces_append (by simp),
        List.length_replicate]
    have longer : gap.length = spaces.length + (behind.length + 1) := by simp [split]
    rw [count]
    exact ⟨by omega, by simp only [noTab, not_true, iff_false]; omega⟩
  · have count : leadingSpaces (gap ++ rest) = gap.length := by
      rw [isGap.eq_replicate noTab, CanonicalMarkdown.leadingSpaces_append visible,
        List.length_replicate]
    simp [count, noTab]

theorem le_contentSpace (isGap : IsGap gap) {rest : List Char} {char : Char}
    (starts : rest.head? = .some char) (visible : Unicode.isWhiteSpace char = false) :
    gap.length ≤ contentSpace (firstLine (gap ++ rest)) ↔ '\t' ∉ gap ∨ gap.length = 1 := by
  have notNewline : char ≠ '\n' := by
    rintro rfl
    contradiction
  have notSpace : char ≠ ' ' := by
    rintro rfl
    contradiction
  obtain ⟨others, rfl⟩ := List.head?_eq_some_iff.mp starts
  have line : firstLine (gap ++ char :: others) = gap ++ char :: firstLine others := by
    rw [firstLine_append (isGap.not_mem (by decide)), firstLine,
      List.takeWhile_cons_of_pos (by simpa using notNewline)]
    rfl
  have shown : (gap ++ char :: firstLine others).all Unicode.isWhiteSpace = false := by
    simp [visible]
  obtain ⟨bound, whole⟩ := isGap.leadingSpaces_append
    (show (char :: firstLine others).head? ≠ .some ' ' by simpa using notSpace)
  have short := isGap.short
  have filled : gap.length ≠ 0 := by simpa using isGap.some
  rw [line, contentSpace, ← whole]
  simp only [shown, Bool.false_eq_true, or_false]
  split <;> omega

end IsGap

/-- How the content of a container leads to an item in it: behind the marker of a quote and at most
    one space, behind the mark of an item or details block and a gap, or on a later line of such. -/
inductive Opening
  | quote (spaced : Bool)
  | item (mark gap : List Char)
  | details (gap : List Char)
  | later
deriving DecidableEq, Repr, Inhabited

namespace Opening

def LeadsTo (source : Source) (container : Container) (start marker : Nat) : Opening → Prop
  | .quote spaced => container = .blockQuote ∧ ∃ front back,
      let middle := '>' :: if spaced then [' '] else []
      source.chars = front ++ (middle ++ back) ∧ marker = byteLength (front ++ middle)
  | .item mark gap => container = .item ∧ IsMark mark ∧ IsGap gap ∧ ∃ front inner back,
      IsMark inner ∧ source.chars = front ++ ((mark ++ gap) ++ (inner ++ back)) ∧
      source.markerOffset start = byteLength front ∧ marker = byteLength (front ++ (mark ++ gap))
  | .details gap => container = .definition ∧ IsGap gap ∧ ∃ front back,
      source.chars = front ++ ((':' :: gap) ++ back) ∧
      source.markerOffset start = byteLength front ∧ marker = byteLength (front ++ ':' :: gap)
  | .later => '\n' ∈ (source.slice ⟨start, marker⟩).toList

/-- The marker of the item is not counted to stand further right than the content it starts. -/
def IsMeasured (source : Source) (container : Container) (start marker : Nat) : Opening → Prop
  | .quote _ => True
  | .item _ gap => '\t' ∉ gap ∨ gap.length = 1
  | .details _ => False
  | .later => source.column marker ≤ container.contentColumn source start

theorem column_le_iff {source : Source} {container : Container} {start marker : Nat}
    {opening : Opening} (leads : opening.LeadsTo source container start marker) :
    source.column marker ≤ container.contentColumn source start ↔
      opening.IsMeasured source container start marker := by
  cases opening with
  | quote spaced =>
    obtain ⟨rfl, front, back, split, rfl⟩ := leads
    have oneLine : '\n' ∉ '>' :: if spaced then [' '] else [] := by cases spaced <;> decide
    rw [Source.column, Source.lineBefore_append split oneLine, insideQuotes_quote]
    simp [IsMeasured]
  | item mark gap =>
    obtain ⟨rfl, isMark, isGap, front, inner, back, isInner, split, begins, rfl⟩ := leads
    have oneLine : '\n' ∉ mark ++ gap :=
      List.mem_append.not.mpr (not_or_intro (isMark.not_mem (by decide)) (isGap.not_mem (by decide)))
    have noQuote : '>' ∉ mark ++ gap :=
      List.mem_append.not.mpr (not_or_intro (isMark.not_mem (by decide)) (isGap.not_mem (by decide)))
    obtain ⟨first, starts, visible⟩ := isMark.head gap
    obtain ⟨char, startsInner, visibleInner⟩ := isInner.head back
    have notSpace : (mark ++ gap).head? ≠ some ' ' := by
      rw [starts]
      rintro ⟨⟩
      contradiction
    have content : Container.item.contentColumn source start =
        source.column (byteLength front) + mark.length +
          contentSpace (firstLine (gap ++ (inner ++ back))) := by
      show source.contentColumn start = _
      simp only [Source.contentColumn, source.itemStart_eq start, begins,
        Source.after_append split, List.append_assoc, isMark.markerWidth, isMark.dropBytes,
        Option.getD_some]
    rw [content, Source.column_append split oneLine noQuote notSpace, List.length_append,
      IsMeasured, ← isGap.le_contentSpace startsInner visibleInner]
    omega
  | details gap =>
    obtain ⟨rfl, isGap, front, back, split, _, rfl⟩ := leads
    have oneLine : '\n' ∉ ':' :: gap :=
      List.not_mem_cons_of_ne_of_not_mem (by decide) (isGap.not_mem (by decide))
    have noQuote : '>' ∉ ':' :: gap :=
      List.not_mem_cons_of_ne_of_not_mem (by decide) (isGap.not_mem (by decide))
    rw [Source.column_append split oneLine noQuote (by simp)]
    simp [IsMeasured, Container.contentColumn]
  | later => rfl

end Opening

end CanonicalMarkdown
