import CanonicalMarkdown.Node
import CanonicalMarkdown.Text.Lines
import CanonicalMarkdown.Unicode.WhiteSpace

namespace CanonicalMarkdown.Markdown

structure Fence where
  mark : Char
  length : Nat
deriving DecidableEq, Repr, Inhabited

namespace Fence

def text (fence : Fence) : String := Text.repeated fence.length fence.mark

def run (mark : Char) (text : List Char) : Nat := (text.takeWhile (· = mark)).length

def isContainerMark (c : Char) : Bool := c = ' ' || c = '\t' || c = '>'

/-- The fence at the start of the closing line, container marks skipped. A run of fewer than three
    characters is none; three backticks stand in for it. -/
def found (closing : List Char) : Fence :=
  let line := (Text.firstLine closing).dropWhile isContainerMark
  match line.head? with
  | some '`' => if run '`' line < 3 then ⟨'`', 3⟩ else ⟨'`', run '`' line⟩
  | some '~' => if run '~' line < 3 then ⟨'`', 3⟩ else ⟨'~', run '~' line⟩
  | _ => ⟨'`', 3⟩

def longestRun (mark : Char) (content : List String) : Nat :=
  (content.map fun line => run mark (line.toList.dropWhile (· = ' '))).foldl max 0

/-- The fence to write: the one found, with tildes if the info string holds a backtick, and longer
    than every run that a content line starts with. -/
def choose (closing : List Char) (content : List String) (info : String) : Fence :=
  let fence := found closing
  let mark := if fence.mark = '`' ∧ '`' ∈ info.toList then '~' else fence.mark
  let longest := longestRun mark content
  ⟨mark, if fence.length ≤ longest then longest + 1 else fence.length⟩

end Fence

/-- The content of a code span touches its delimiters with a backtick, or would lose a space on
    both sides when it is read. -/
def needsSpaces (code : List Char) : Bool :=
  code.head? = some '`' || code.getLast? = some '`' ||
    (1 < code.length && code.head? = some ' ' && code.getLast? = some ' ' &&
      !code.all Unicode.isWhiteSpace)

def spacedCode (code : List Char) : List Char :=
  if needsSpaces code then ' ' :: (code ++ [' ']) else code

def offsetBeforeText? (node : Node) : Option Nat :=
  match node.children with
  | ⟨.text run, _, _, _⟩ :: _ =>
    if run.segment.start = 0 then none else some (run.segment.start - 1)
  | _ => none

def isEmphasisMark (c : Char) : Bool := c = '*' || c = '_'

/-- The emphasis mark in the source: the character right before the text inside or, if that is no
    mark, the first of the node; an asterisk if neither is one. -/
def delimiterOf (source : Source) (node : Node) : Char :=
  let beforeText := ((offsetBeforeText? node).bind source.charAt?).filter isEmphasisMark
  let first := (source.charAt? node.span.start).filter isEmphasisMark
  (beforeText.or first).getD '*'

end CanonicalMarkdown.Markdown
