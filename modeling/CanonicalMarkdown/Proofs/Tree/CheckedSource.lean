import CanonicalMarkdown.Proofs.Text.Slices
import CanonicalMarkdown.Tree.SourceLine

namespace CanonicalMarkdown

open Text

/-- What would stop the builder: a slice off a character boundary or out of range, or the top of a
    stack that is empty. -/
inductive Fault
  | slice
  | emptyStack
deriving DecidableEq, Repr

abbrev Checked := Except Fault

namespace Checked

@[simp] theorem ok_bind {α β : Type} (found : α) (next : α → Checked β) :
    (Except.ok found : Checked α) >>= next = next found := rfl

@[simp] theorem pure_eq {α : Type} (found : α) : (pure found : Checked α) = .ok found := rfl

def ofSlice {α : Type} : Option α → Checked α
  | some found => .ok found
  | none => .error .slice

@[simp] theorem ofSlice_some {α : Type} (found : α) : ofSlice (some found) = .ok found := rfl

/-- A lookup that may miss. Where a miss is no fault it finds nothing. -/
def look (strict : Bool) (found : Option (List Char)) : Checked (List Char) :=
  if strict then ofSlice found else return found.getD []

theorem look_eq {strict : Bool} {found : Option (List Char)}
    (hits : strict = true → found.isSome = true) : look strict found = .ok (found.getD []) := by
  cases strict with
  | false => rfl
  | true =>
    obtain ⟨text, rfl⟩ := Option.isSome_iff_exists.mp (hits rfl)
    rfl

theorem look_of_miss {found : Option (List Char)} (misses : ¬ found.isSome = true) :
    look true found = .error .slice := by
  rw [Option.not_isSome_iff_eq_none.mp misses]
  rfl

def sliceOf (source : Source) (span : Span) : Checked (List Char) := ofSlice (source.slice? span)

def upTo (offset : Nat) (text : List Char) : Checked (List Char) := ofSlice (takeBytes offset text)

def onFrom (offset : Nat) (text : List Char) : Checked (List Char) :=
  ofSlice (dropBytes offset text)

def lastIndex (c : Char) : List Char → Option Nat
  | [] => none
  | first :: rest =>
    match lastIndex c rest with
    | some index => some (first.utf8Size + index)
    | none => if first = c then some 0 else none

def withoutSpace : List Char → List Char
  | ' ' :: rest => rest
  | rest => rest

def column (source : Source) (offset : Nat) : Checked Nat := do
  let before ← upTo offset source.chars
  let start := (lastIndex '\n' before).elim 0 (· + 1)
  let line ← sliceOf source ⟨start, offset⟩
  match lastIndex '>' line with
  | none => return line.length
  | some index => return (withoutSpace (← onFrom (index + 1) line)).length

def itemStart (strict : Bool) (source : Source) (start : Nat) : Checked ItemStart := do
  let rest ← onFrom start source.chars
  let indent := leadingSpaces rest
  let item ← onFrom indent rest
  let marker := markerWidth item
  let behind ← look strict (dropBytes marker item)
  return ⟨← column source (start + indent), marker, contentSpace (firstLine behind)⟩

def followsBlankLine (source : Source) (offset : Nat) : Checked Bool := do
  let _ ← upTo offset source.chars
  return source.followsBlankLine offset

def lineEnd (source : Source) (offset : Nat) : Checked Nat := do
  let _ ← onFrom offset source.chars
  return source.lineEnd offset

def markerChar (source : Source) (start : Nat) (ordered : Bool) : Checked Char := do
  let _ ← onFrom start source.chars
  return source.markerChar start ordered

end Checked

/-- An offset inside the source or at its end, on a character boundary. -/
def Source.IsBoundary (source : Source) (offset : Nat) : Prop :=
  ∃ before after, source.chars = before ++ after ∧ byteLength before = offset

namespace Source.IsBoundary

variable {source : Source} {start stop offset : Nat}

theorem of_slice? {text : List Char} (sliced : source.slice? ⟨start, stop⟩ = some text) :
    source.IsBoundary start ∧ source.IsBoundary stop := by
  obtain ⟨before, after, split, rfl, rfl⟩ := slice?_eq_some_iff.mp sliced
  exact ⟨⟨before, text ++ after, split, rfl⟩, ⟨before ++ text, after, by simp [split], by simp⟩⟩

theorem slice? (first : source.IsBoundary start) (last : source.IsBoundary stop)
    (ordered : start ≤ stop) : ∃ text, source.slice? ⟨start, stop⟩ = some text := by
  obtain ⟨before, _, split, rfl⟩ := first
  obtain ⟨front, after, splitLast, rfl⟩ := last
  obtain ⟨text, rfl⟩ := prefix_of_byteLength_le (split.symm.trans splitLast) ordered
  exact ⟨text, slice?_eq_some_iff.mpr ⟨before, after, by simp [splitLast], rfl, by simp⟩⟩

theorem larger (first : source.IsBoundary start) (last : source.IsBoundary stop) :
    source.IsBoundary (max start stop) := by
  rcases Nat.le_total start stop with le | le
  · rwa [Nat.max_eq_right le]
  · rwa [Nat.max_eq_left le]

theorem smaller (first : source.IsBoundary start) (last : source.IsBoundary stop) :
    source.IsBoundary (min start stop) := by
  rcases Nat.le_total start stop with le | le
  · rwa [Nat.min_eq_left le]
  · rwa [Nat.min_eq_right le]

theorem upTo (boundary : source.IsBoundary offset) :
    Checked.upTo offset source.chars = .ok (source.before offset) := by
  obtain ⟨before, after, split, rfl⟩ := boundary
  simp [Checked.upTo, Source.before, split]

theorem onFrom (boundary : source.IsBoundary offset) :
    Checked.onFrom offset source.chars = .ok (source.after offset) := by
  obtain ⟨before, after, split, rfl⟩ := boundary
  simp [Checked.onFrom, Source.after, split]

end Source.IsBoundary

namespace Checked

variable {c : Char} {text : List Char}

theorem lastIndex_eq_none (none : lastIndex c text = none) : c ∉ text := by
  induction text with
  | nil => simp
  | cons first rest ih =>
    rw [lastIndex] at none
    cases found : lastIndex c rest with
    | some index => simp [found] at none
    | none =>
      have other : first ≠ c := by simpa [found] using none
      simp [other.symm, ih found]

theorem lastIndex_eq_some {index : Nat} (found : lastIndex c text = some index) :
    ∃ front back, text = front ++ c :: back ∧ c ∉ back ∧ byteLength front = index := by
  induction text generalizing index with
  | nil => contradiction
  | cons first rest ih =>
    rw [lastIndex] at found
    cases later : lastIndex c rest with
    | some behind =>
      rw [later] at found
      obtain ⟨front, back, rfl, last, rfl⟩ := ih later
      exact ⟨first :: front, back, rfl, last, Option.some.inj found⟩
    | none =>
      simp only [later, Option.ite_none_right_eq_some, Option.some.injEq] at found
      obtain ⟨rfl, rfl⟩ := found
      exact ⟨[], rest, rfl, lastIndex_eq_none later, rfl⟩

theorem reverse_takeWhile_append (front : List Char) {back : List Char} (absent : c ∉ back) :
    ((front ++ back).reverse.takeWhile (· ≠ c)).reverse =
      (front.reverse.takeWhile (· ≠ c)).reverse ++ back := by
  have kept : ∀ other ∈ back.reverse, decide (other ≠ c) = true := by
    intro other member
    simp only [decide_eq_true_eq]
    rintro rfl
    exact absent (List.mem_reverse.mp member)
  rw [List.reverse_append, List.takeWhile_append_of_pos kept, List.reverse_append,
    List.reverse_reverse]

theorem reverse_takeWhile_last (front : List Char) {back : List Char} (last : c ∉ back) :
    ((front ++ c :: back).reverse.takeWhile (· ≠ c)).reverse = back := by
  have split : front ++ c :: back = (front ++ [c]) ++ back := by simp
  rw [split, reverse_takeWhile_append _ last]
  simp

theorem reverse_takeWhile_of_not_mem (absent : c ∉ text) :
    (text.reverse.takeWhile (· ≠ c)).reverse = text :=
  reverse_takeWhile_append [] absent

theorem slice?_lineBefore {source : Source} {offset : Nat} (boundary : source.IsBoundary offset) :
    source.slice? ⟨(lastIndex '\n' (source.before offset)).elim 0 (· + 1), offset⟩ =
      some (source.lineBefore offset) := by
  obtain ⟨before, after, split, rfl⟩ := boundary
  have whole : source.before (byteLength before) = before := by simp [Source.before, split]
  rw [Source.lineBefore, whole]
  cases found : lastIndex '\n' before with
  | none =>
    rw [reverse_takeWhile_of_not_mem (lastIndex_eq_none found)]
    exact Source.slice?_eq_some_iff.mpr ⟨[], after, by simp [split], rfl, by simp⟩
  | some index =>
    obtain ⟨front, back, rfl, last, rfl⟩ := lastIndex_eq_some found
    rw [reverse_takeWhile_last front last]
    refine Source.slice?_eq_some_iff.mpr ⟨front ++ ['\n'], after, by simp [split], by simp; rfl, ?_⟩
    simp [Nat.add_assoc]

theorem column_eq {source : Source} {offset : Nat} (boundary : source.IsBoundary offset) :
    column source offset = .ok (source.column offset) := by
  have line := slice?_lineBefore boundary
  simp only [column, boundary.upTo, ok_bind, sliceOf, line, ofSlice_some, Source.column]
  generalize source.lineBefore offset = line
  cases found : lastIndex '>' line with
  | none => simp [insideQuotes, lastIndex_eq_none found]
  | some index =>
    obtain ⟨front, back, rfl, last, rfl⟩ := lastIndex_eq_some found
    have behind : dropBytes (byteLength front + 1) (front ++ '>' :: back) = some back :=
      dropBytes_eq_some_iff.mpr ⟨front ++ ['>'], by simp, by simp; rfl⟩
    have inside : insideQuotes (front ++ '>' :: back) = withoutSpace back := by
      rw [insideQuotes, if_pos (by simp), reverse_takeWhile_last front last]
      rfl
    simp only [onFrom, behind, ofSlice_some, ok_bind, inside, pure_eq]

theorem byteLength_leadingSpaces (text : List Char) :
    byteLength (text.takeWhile (· = ' ')) = leadingSpaces text := by
  unfold leadingSpaces
  induction text with
  | nil => rfl
  | cons first rest ih =>
    by_cases space : first = ' '
    · subst space
      simp only [decide_true, List.takeWhile_cons_of_pos, byteLength_cons, List.length_cons, ih]
      exact Nat.add_comm _ _
    · simp [space]

theorem onFrom_leadingSpaces (text : List Char) :
    onFrom (leadingSpaces text) text = .ok (text.drop (leadingSpaces text)) := by
  have split : text = text.takeWhile (· = ' ') ++ text.dropWhile (· = ' ') :=
    List.takeWhile_append_dropWhile.symm
  have rest : text.drop (leadingSpaces text) = text.dropWhile (· = ' ') :=
    (congrArg (List.drop (leadingSpaces text)) split).trans List.drop_left
  have dropped : dropBytes (leadingSpaces text) text = some (text.dropWhile (· = ' ')) :=
    dropBytes_eq_some_iff.mpr ⟨_, split, byteLength_leadingSpaces text⟩
  rw [onFrom, dropped, rest, ofSlice_some]

def itemText (source : Source) (start : Nat) : List Char :=
  (source.after start).drop (leadingSpaces (source.after start))

def itemOffset (source : Source) (start : Nat) : Nat := start + leadingSpaces (source.after start)

theorem split_itemText {source : Source} {start : Nat} (boundary : source.IsBoundary start) :
    ∃ before, source.chars = before ++ itemText source start ∧
      byteLength before = itemOffset source start := by
  obtain ⟨before, after, split, rfl⟩ := boundary
  have rest : source.after (byteLength before) = after := by simp [Source.after, split]
  have item : itemText source (byteLength before) = after.dropWhile (· = ' ') := by
    rw [itemText, rest]
    exact (congrArg (List.drop (leadingSpaces after))
      List.takeWhile_append_dropWhile.symm).trans List.drop_left
  refine ⟨before ++ after.takeWhile (· = ' '), ?_, ?_⟩
  · rw [item, List.append_assoc, List.takeWhile_append_dropWhile, split]
  · rw [byteLength_append, byteLength_leadingSpaces, itemOffset, rest]

/-- What follows a marker can be cut off just if the marker ends on a boundary. -/
theorem isSome_behindMarker_iff {source : Source} {start : Nat}
    (boundary : source.IsBoundary start) :
    (dropBytes (markerWidth (itemText source start)) (itemText source start)).isSome = true ↔
      source.IsBoundary (itemOffset source start + markerWidth (itemText source start)) := by
  obtain ⟨before, split, offset⟩ := split_itemText boundary
  generalize itemText source start = item at split ⊢
  rw [← offset, Option.isSome_iff_exists]
  constructor
  · rintro ⟨behind, dropped⟩
    obtain ⟨marker, rfl, width⟩ := dropBytes_eq_some_iff.mp dropped
    exact ⟨before ++ marker, behind, by simp [split], by simp [width]⟩
  · rintro ⟨front, behind, other, length⟩
    obtain ⟨marker, rfl⟩ := prefix_of_byteLength_le (split.symm.trans other) (by omega)
    rw [split, List.append_assoc] at other
    rw [byteLength_append] at length
    exact ⟨behind, dropBytes_eq_some_iff.mpr ⟨marker, List.append_cancel_left other, by omega⟩⟩

section item

variable {source : Source} {start : Nat}

theorem itemStart_eq {strict : Bool} (boundary : source.IsBoundary start)
    (hits : strict = true → source.IsBoundary
      (itemOffset source start + markerWidth (itemText source start))) :
    itemStart strict source start = .ok (source.itemStart start) := by
  have indented : source.IsBoundary (start + leadingSpaces (source.after start)) := by
    obtain ⟨before, split, offset⟩ := split_itemText boundary
    exact ⟨before, _, split, offset⟩
  have behind := look_eq fun isStrict => (isSome_behindMarker_iff boundary).mpr (hits isStrict)
  rw [itemText] at behind
  simp only [itemStart, boundary.onFrom, ok_bind, onFrom_leadingSpaces, behind,
    column_eq indented, pure_eq, Source.itemStart]

theorem itemStart_of_miss (boundary : source.IsBoundary start)
    (misses : ¬ source.IsBoundary
      (itemOffset source start + markerWidth (itemText source start))) :
    itemStart true source start = .error .slice := by
  have behind := look_of_miss (mt (isSome_behindMarker_iff boundary).mp misses)
  rw [itemText] at behind
  simp only [itemStart, boundary.onFrom, ok_bind, onFrom_leadingSpaces, behind]
  rfl

end item

theorem followsBlankLine_eq {source : Source} {offset : Nat} (boundary : source.IsBoundary offset) :
    followsBlankLine source offset = .ok (source.followsBlankLine offset) := by
  simp only [followsBlankLine, boundary.upTo, ok_bind, pure_eq]

theorem lineEnd_eq {source : Source} {offset : Nat} (boundary : source.IsBoundary offset) :
    lineEnd source offset = .ok (source.lineEnd offset) := by
  simp only [lineEnd, boundary.onFrom, ok_bind, pure_eq]

theorem markerChar_eq {source : Source} {start : Nat} (boundary : source.IsBoundary start)
    (ordered : Bool) : markerChar source start ordered = .ok (source.markerChar start ordered) := by
  simp only [markerChar, boundary.onFrom, ok_bind, pure_eq]

end Checked

end CanonicalMarkdown
