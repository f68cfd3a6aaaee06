import CanonicalMarkdown.Source
import CanonicalMarkdown.Unicode.WhiteSpace
import CanonicalMarkdown.Text.Lines

namespace CanonicalMarkdown

def Source.lineBefore (source : Source) (offset : Nat) : List Char :=
  ((source.before offset).reverse.takeWhile (· ≠ '\n')).reverse

def insideQuotes (line : List Char) : List Char :=
  if '>' ∈ line then
    match (line.reverse.takeWhile (· ≠ '>')).reverse with
    | ' ' :: rest => rest
    | rest => rest
  else line

/-- The column of an offset in its line, counted from the innermost quote marker. -/
def Source.column (source : Source) (offset : Nat) : Nat :=
  (insideQuotes (source.lineBefore offset)).length

def Source.lineEnd (source : Source) (offset : Nat) : Nat :=
  let rest := source.after offset
  if '\n' ∈ rest then offset + Text.byteLength (Text.firstLine rest) + 1 else source.size

def Source.followsBlankLine (source : Source) (offset : Nat) : Bool :=
  match (source.before offset).reverse.dropWhile (· ≠ '\n') with
  | [] => false
  | _ :: above =>
    (above.takeWhile (· ≠ '\n')).all fun c => Unicode.isWhiteSpace c || c = '>'

structure ItemStart where
  column : Nat
  marker : Nat
  space : Nat
deriving DecidableEq, Repr, Inhabited

def leadingSpaces (text : List Char) : Nat := (text.takeWhile (· = ' ')).length

def markerWidth (text : List Char) : Nat := (text.takeWhile Char.isDigit).length + 1

/-- The space behind a marker; an item that starts with a blank line or with indented code has its
    content one space behind the marker. -/
def contentSpace (line : List Char) : Nat :=
  let spaces := leadingSpaces line
  if spaces = 0 ∨ 5 ≤ spaces ∨ line.all Unicode.isWhiteSpace then 1 else spaces

def Source.itemStart (source : Source) (start : Nat) : ItemStart :=
  let rest := source.after start
  let indent := leadingSpaces rest
  let item := rest.drop indent
  let marker := markerWidth item
  let behind := (Text.dropBytes marker item).getD []
  ⟨source.column (start + indent), marker, contentSpace (Text.firstLine behind)⟩

def orderedMarker (item : List Char) : Char :=
  ((item.dropWhile Char.isDigit).head?.filter fun c => c = '.' || c = ')').getD '.'

def bulletMarker (item : List Char) : Char :=
  (item.head?.filter fun c => c = '-' || c = '+' || c = '*').getD '-'

def Source.markerChar (source : Source) (start : Nat) (ordered : Bool) : Char :=
  let item := (source.after start).dropWhile (· = ' ')
  if ordered then orderedMarker item else bulletMarker item

end CanonicalMarkdown
