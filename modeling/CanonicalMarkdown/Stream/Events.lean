import CanonicalMarkdown.Event
import CanonicalMarkdown.Stream.Json

namespace CanonicalMarkdown.Stream

def textOf? : Json → Option String
  | .string value => some value
  | _ => none

def countOf? : Json → Option Nat
  | .count value => some value
  | _ => none

def itemsOf? : Json → Option (List Json)
  | .array items => some items
  | _ => none

def nullable {α : Type} (read : Json → Option α) : Json → Option (Option α)
  | .null => some none
  | json => (read json).map some

def alignmentOf? : Json → Option Alignment
  | .string "none" => some .none
  | .string "left" => some .left
  | .string "center" => some .center
  | .string "right" => some .right
  | _ => none

def attributeOf? : Json → Option Attribute
  | .array [name, value] => do return ⟨← textOf? name, ← nullable textOf? value⟩
  | _ => none

def listOf? {α : Type} (read : Json → Option α) (json : Json) : Option (List α) := do
  (← itemsOf? json).mapM read

def markupOf? : String → List Json → Option Markup
  | "end", [] => some .close
  | "text", [text] => (textOf? text).map .text
  | "code", [text] => (textOf? text).map .code
  | "html", [text] => (textOf? text).map .html
  | "inline_html", [text] => (textOf? text).map .inlineHtml
  | "soft_break", [] => some .softBreak
  | "hard_break", [] => some .hardBreak
  | "rule", [] => some .rule
  | "paragraph", [] => some (.start .paragraph)
  | "block_quote", [] => some (.start .blockQuote)
  | "indented_code", [] => some (.start .indentedCode)
  | "html_block", [] => some (.start .htmlBlock)
  | "item", [] => some (.start .item)
  | "emphasis", [] => some (.start .emphasis)
  | "strong", [] => some (.start .strong)
  | "heading", [level, id, classes, attributes] => do
    return .start (.heading (← countOf? level) (← nullable textOf? id) (← listOf? textOf? classes)
      (← listOf? attributeOf? attributes))
  | "fenced_code", [info] => do return .start (.fencedCode (← textOf? info))
  | "list", [start] => do return .start (.list (← nullable countOf? start))
  | "definition_list", [] => some (.start .definitionList)
  | "definition_title", [] => some (.start .definitionTitle)
  | "definition", [] => some (.start .definition)
  | "table", [alignments] => do return .start (.table (← listOf? alignmentOf? alignments))
  | "table_head", [] => some (.start .tableHead)
  | "table_row", [] => some (.start .tableRow)
  | "table_cell", [] => some (.start .tableCell)
  | "link", [destination, title] => do
    return .start (.link (← textOf? destination) (← textOf? title))
  | "image", [destination, title] => do
    return .start (.image (← textOf? destination) (← textOf? title))
  | "autolink", [url, _] => do return .start (.autoLink (← textOf? url))
  | "email", [address, _] => do return .start (.email (← textOf? address))
  | _, _ => none

def eventOf? : Json → Option Event
  | .array (name :: start :: stop :: carried) => do
    return ⟨← markupOf? (← textOf? name) carried, ⟨← countOf? start, ← countOf? stop⟩⟩
  | _ => none

def read (text : String) : Option (List Event) := (Json.read text).bind (listOf? eventOf?)

end CanonicalMarkdown.Stream
