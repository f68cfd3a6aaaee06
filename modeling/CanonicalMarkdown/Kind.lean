namespace CanonicalMarkdown

/-- Kinds of node, blocks first. -/
inductive Kind
  | document | heading | paragraph | blockquote | list | listItem | codeBlock | fencedCodeBlock
  | htmlBlock | thematicBreak | table | tableHead | tableRow | tableCell | definitionList
  | definitionTerm | definitionDetails | text | string | emphasis | codeSpan | link | image
  | autoLink | rawHtml
deriving DecidableEq, Repr, Inhabited

def Kind.all : List Kind :=
  [.document, .heading, .paragraph, .blockquote, .list, .listItem, .codeBlock, .fencedCodeBlock,
    .htmlBlock, .thematicBreak, .table, .tableHead, .tableRow, .tableCell, .definitionList,
    .definitionTerm, .definitionDetails, .text, .string, .emphasis, .codeSpan, .link, .image,
    .autoLink, .rawHtml]

def Kind.ordinal (kind : Kind) : Nat := kind.ctorIdx

/-- Blocks are separated from their next sibling; a table cell is none. -/
def Kind.isBlock : Kind → Bool
  | .tableCell | .text | .string | .emphasis | .codeSpan | .link | .image | .autoLink | .rawHtml =>
    false
  | _ => true

def Kind.name : Kind → String
  | .document => "Document"
  | .heading => "Heading"
  | .paragraph => "Paragraph"
  | .blockquote => "Blockquote"
  | .list => "List"
  | .listItem => "ListItem"
  | .codeBlock => "CodeBlock"
  | .fencedCodeBlock => "FencedCodeBlock"
  | .htmlBlock => "HTMLBlock"
  | .thematicBreak => "ThematicBreak"
  | .table => "Table"
  | .tableHead => "TableHead"
  | .tableRow => "TableRow"
  | .tableCell => "TableCell"
  | .definitionList => "DefinitionList"
  | .definitionTerm => "DefinitionTerm"
  | .definitionDetails => "DefinitionDetails"
  | .text => "Text"
  | .string => "String"
  | .emphasis => "Emphasis"
  | .codeSpan => "CodeSpan"
  | .link => "Link"
  | .image => "Image"
  | .autoLink => "AutoLink"
  | .rawHtml => "RawHTML"

theorem Kind.mem_all (kind : Kind) : kind ∈ Kind.all := by cases kind <;> decide

end CanonicalMarkdown
