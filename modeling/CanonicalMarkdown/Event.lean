import CanonicalMarkdown.Node

namespace CanonicalMarkdown

-- The only extensions that are ever turned on are heading attributes, tables, definition lists and
-- smart punctuation. So no footnotes, strikethrough, sub- or superscripts, mathematics, task marks
-- or metadata come.
/-- What a Markdown reader opens, to be closed by a matching `close`. -/
inductive Container
  | paragraph
  | heading (level : Nat) (id : Option String) (classes : List String)
      (attributes : List Attribute)
  | blockQuote
  | indentedCode
  | fencedCode (info : String)
  | htmlBlock
  | list (start : Option Nat)
  | item
  | definitionList
  | definitionTitle
  | definition
  | table (alignments : List Alignment)
  | tableHead
  | tableRow
  | tableCell
  | emphasis
  | strong
  /-- A link with an empty title has none. -/
  | link (destination title : String)
  | autoLink (url : String)
  | email (address : String)
  | image (destination title : String)
deriving DecidableEq, Repr, Inhabited

inductive Markup
  | start (container : Container)
  | close
  | text (text : String)
  | code (text : String)
  | html (text : String)
  | inlineHtml (text : String)
  | softBreak
  | hardBreak
  | rule
deriving DecidableEq, Repr, Inhabited

structure Event where
  markup : Markup
  span : Span
deriving DecidableEq, Repr, Inhabited

end CanonicalMarkdown
