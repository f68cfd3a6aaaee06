import CanonicalMarkdown.Attributes
import CanonicalMarkdown.Kind
import CanonicalMarkdown.Source

namespace CanonicalMarkdown

inductive Alignment
  | none | left | center | right
deriving DecidableEq, Repr, Inhabited

structure ListStyle where
  /-- The number of the first item; a bullet list has none. -/
  start : Option Nat
  /-- The bullet, or the delimiter behind a number. -/
  marker : Char
  tight : Bool
  blankBefore : Bool
deriving DecidableEq, Repr, Inhabited

structure TextRun where
  /-- Where the run stands in the source, escapes and entities included. -/
  segment : Span
  literal : String
  raw : Bool := false
  softBreak : Bool := false
  hardBreak : Bool := false
deriving DecidableEq, Repr, Inhabited

structure LinkTarget where
  destination : String
  title : Option String
deriving DecidableEq, Repr, Inhabited

inductive Payload
  | document
  | heading (level : Nat)
  | paragraph
  | blockquote
  | list (style : ListStyle)
  /-- The offset is the width from the line start inside the container to the content. -/
  | listItem (offset : Nat)
  | codeBlock (lines : List String)
  /-- The content ends where the closing fence line starts. -/
  | fencedCodeBlock (info : String) (lines : List String) (contentEnd : Nat)
  | htmlBlock (lines : List String) (closure : Option String)
  | thematicBreak
  | table (alignments : List Alignment)
  | tableHead
  | tableRow
  | tableCell
  | definitionList
  | definitionTerm
  | definitionDetails (tight : Bool)
  | text (run : TextRun)
  | string (value : String)
  | emphasis (level : Nat)
  | codeSpan (delimiter : Nat)
  | link (target : LinkTarget)
  | image (target : LinkTarget)
  | autoLink (url : String) (email : Bool)
  | rawHtml (segments : List String)
deriving DecidableEq, Repr, Inhabited

def Payload.kind : Payload → Kind
  | document => .document
  | heading _ => .heading
  | paragraph => .paragraph
  | blockquote => .blockquote
  | list _ => .list
  | listItem _ => .listItem
  | codeBlock _ => .codeBlock
  | fencedCodeBlock _ _ _ => .fencedCodeBlock
  | htmlBlock _ _ => .htmlBlock
  | thematicBreak => .thematicBreak
  | table _ => .table
  | tableHead => .tableHead
  | tableRow => .tableRow
  | tableCell => .tableCell
  | definitionList => .definitionList
  | definitionTerm => .definitionTerm
  | definitionDetails _ => .definitionDetails
  | text _ => .text
  | string _ => .string
  | emphasis _ => .emphasis
  | codeSpan _ => .codeSpan
  | link _ => .link
  | image _ => .image
  | autoLink _ _ => .autoLink
  | rawHtml _ => .rawHtml

structure Node where
  payload : Payload
  span : Span
  attributes : Attributes
  children : List Node
deriving Repr, Inhabited

def Node.leaf (payload : Payload) (span : Span) : Node := ⟨payload, span, {}, []⟩

def Node.kind (node : Node) : Kind := node.payload.kind

def Node.isTightList (node : Node) : Bool :=
  match node.payload with
  | .list style => style.tight
  | _ => false

def TextRun.plainText (run : TextRun) : String :=
  if run.softBreak || run.hardBreak then run.literal ++ " " else run.literal

mutual

def Node.plainText : Node → String
  | ⟨.text run, _, _, _⟩ => run.plainText
  | ⟨.string value, _, _, _⟩ => value
  | ⟨_, _, _, children⟩ => plainTexts children

def plainTexts : List Node → String
  | [] => ""
  | node :: rest => node.plainText ++ plainTexts rest

end

/-- A tree and the source its spans point into. -/
structure Document where
  source : Source
  root : Node
deriving Repr, Inhabited

end CanonicalMarkdown
