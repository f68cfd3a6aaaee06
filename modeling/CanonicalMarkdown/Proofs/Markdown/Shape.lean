import CanonicalMarkdown.Proofs.ContentLines
import CanonicalMarkdown.Proofs.Markdown.RuleSet

namespace CanonicalMarkdown

def Kind.holdsBlocks : Kind → Bool
  | .document | .blockquote | .list | .listItem | .definitionList | .definitionDetails => true
  | _ => false

def Kind.isChildless : Kind → Bool
  | .codeBlock | .fencedCodeBlock | .htmlBlock | .thematicBreak => true
  | _ => false

/-- Items stand in lists, heads and rows in tables, and other blocks in blocks that hold them. -/
def Payload.fitsIn : Payload → Option Payload → Bool
  | .listItem _, some (.list style) => style.marker ≠ '\n'
  | .listItem _, _ => false
  | .tableHead, some (.table _) => true
  | .tableHead, _ => false
  | .tableRow, some (.table _) => true
  | .tableRow, _ => false
  | _, none => true
  | payload, some parent => !payload.kind.isBlock || parent.kind.holdsBlocks

theorem Payload.list_of_fitsIn {offset : Nat} {parent? : Option Payload}
    (fits : (Payload.listItem offset).fitsIn parent? = true) :
    ∃ style, parent? = some (.list style) ∧ style.marker ≠ '\n' := by
  cases parent? with
  | none => contradiction
  | some parent =>
    cases parent with
    | list style => exact ⟨style, rfl, by simpa [fitsIn] using fits⟩
    | _ => contradiction

theorem Payload.table_of_fitsIn {parent? : Option Payload}
    (fits : Payload.tableHead.fitsIn parent? = true) :
    ∃ alignments, parent? = some (.table alignments) := by
  cases parent? with
  | none => contradiction
  | some parent =>
    cases parent with
    | table alignments => exact ⟨alignments, rfl⟩
    | _ => contradiction

theorem View.list_of_fitsIn {view : View} {offset : Nat}
    (fits : (Payload.listItem offset).fitsIn view.parentPayload? = true) :
    ∃ parent style, view.parent? = some parent ∧ parent.node.payload = .list style ∧
      style.marker ≠ '\n' := by
  obtain ⟨style, around, marker⟩ := Payload.list_of_fitsIn fits
  obtain ⟨parent, found, same⟩ := Option.map_eq_some_iff.mp around
  exact ⟨parent, style, found, same, marker⟩

theorem View.table_of_fitsIn {view : View}
    (fits : Payload.tableHead.fitsIn view.parentPayload? = true) :
    ∃ parent alignments, view.parent? = some parent ∧
      parent.node.payload = .table alignments := by
  obtain ⟨alignments, around⟩ := Payload.table_of_fitsIn fits
  obtain ⟨parent, found, same⟩ := Option.map_eq_some_iff.mp around
  exact ⟨parent, alignments, found, same⟩

theorem Kind.inline_of_not_isBlock {kind : Kind} (inline : kind.isBlock = false) :
    kind.holdsBlocks = false ∧ kind.isChildless = false := by
  cases kind <;> first | exact ⟨rfl, rfl⟩ | contradiction

theorem Payload.inline_of_fitsIn {payload parent : Payload}
    (fits : payload.fitsIn (some parent) = true) (inline : parent.kind.holdsBlocks = false) :
    payload.kind.holdsBlocks = false ∧ payload.kind.isChildless = false := by
  cases payload with
  | listItem offset =>
    obtain ⟨style, same, _⟩ := list_of_fitsIn fits
    cases same
    contradiction
  | tableHead | tableRow => exact ⟨rfl, rfl⟩
  | _ => exact Kind.inline_of_not_isBlock (by simpa [fitsIn, inline] using fits)

def Attribute.isOneLine (entry : Attribute) : Bool :=
  Text.isOneLine entry.name && entry.value.all Text.isOneLine

def LinkTarget.isOneLine (target : LinkTarget) : Bool :=
  Text.isOneLine target.destination && target.title.all Text.isOneLine

namespace Markdown

def isOneLineCode (source : Source) (child : Node) : Bool :=
  match child.payload with
  | .text run => Text.isOneLine (source.slice run.segment)
  | .string code => Text.isOneLine code
  | _ => true

/-- Whether the texts of the node and those it copies from the source have no newline, except at
    the ends of its code or HTML lines. -/
def isPlain (source : Source) (node : Node) : Bool :=
  match node.payload with
  | .heading _ => node.attributes.entries.all Attribute.isOneLine
  | .codeBlock lines => Text.areLines lines
  | .fencedCodeBlock info lines _ => Text.isOneLine info && Text.areLines lines
  | .htmlBlock lines closure => Text.areLines (lines ++ closure.toList)
  | .text run => Text.isOneLine (source.slice run.segment) && Text.isOneLine run.literal
  | .string value => Text.isOneLine value
  | .codeSpan _ => node.children.all (isOneLineCode source)
  | .link target => target.isOneLine
  | .image target =>
    target.isOneLine && match node.children.head?, node.children.getLast? with
      | some first, some last => Text.isOneLine (source.slice ⟨first.span.start, last.span.stop⟩)
      | _, _ => true
  | .autoLink url _ => Text.isOneLine (source.slice node.span) && Text.isOneLine url
  | .rawHtml segments => segments.all Text.isOneLine
  | _ => true

mutual

def isShaped (source : Source) (parent? : Option Payload) : Node → Bool
  | ⟨payload, span, attributes, children⟩ =>
    payload.fitsIn parent? && isPlain source ⟨payload, span, attributes, children⟩
      && (!payload.kind.isChildless || children.isEmpty)
      && (hides payload.kind || areShaped source (some payload) children)

def areShaped (source : Source) (parent? : Option Payload) : List Node → Bool
  | [] => true
  | node :: rest => isShaped source parent? node && areShaped source parent? rest

end

theorem isShaped_iff {source : Source} {parent? : Option Payload} {node : Node} :
    isShaped source parent? node = true ↔
      node.payload.fitsIn parent? = true ∧ isPlain source node = true ∧
      (node.kind.isChildless = true → node.children = []) ∧
      (hides node.kind = true ∨ areShaped source (some node.payload) node.children = true) := by
  obtain ⟨payload, span, attributes, children⟩ := node
  cases childless : payload.kind.isChildless <;>
    simp [isShaped, Node.kind, childless, and_assoc]

theorem areShaped_cons {source : Source} {parent? : Option Payload} {node : Node}
    {rest : List Node} : areShaped source parent? (node :: rest) = true ↔
      isShaped source parent? node = true ∧ areShaped source parent? rest = true := by
  rw [areShaped, Bool.and_eq_true]

theorem areShaped_append {source : Source} {parent? : Option Payload} {left right : List Node} :
    areShaped source parent? (left ++ right) = true ↔
      areShaped source parent? left = true ∧ areShaped source parent? right = true := by
  induction left with
  | nil => simp [areShaped]
  | cons node rest ih => rw [List.cons_append, areShaped_cons, areShaped_cons, ih, and_assoc]

mutual

/-- Code, HTML and thematic breaks end their last line, and so does a block that ends with one. -/
def lineAfter : Node → LineState
  | ⟨.codeBlock lines, _, _, _⟩ => if lines.isEmpty then .begun else .ended
  | ⟨.htmlBlock lines closure, _, _, _⟩ =>
    if lines.isEmpty && closure.isNone then .begun else .ended
  | ⟨.thematicBreak, _, _, _⟩ => .ended
  | ⟨payload, _, _, children⟩ =>
    if payload.kind.holdsBlocks then lineAfterAll children else .begun

def lineAfterAll : List Node → LineState
  | [] => .begun
  | [last] => lineAfter last
  | _ :: next :: rest => lineAfterAll (next :: rest)

end

theorem lineAfter_of_holdsBlocks {node : Node} (holds : node.kind.holdsBlocks = true) :
    lineAfter node = lineAfterAll node.children := by
  obtain ⟨payload, span, attributes, children⟩ := node
  cases payload <;> first
    | (simp [Node.kind, Payload.kind, Kind.holdsBlocks] at holds; done)
    | simp [lineAfter, Payload.kind, Kind.holdsBlocks]

theorem lineAfter_of_inline {node : Node} (inline : node.kind.holdsBlocks = false)
    (childless : node.kind.isChildless = false) : lineAfter node = .begun := by
  obtain ⟨payload, span, attributes, children⟩ := node
  cases payload <;> first
    | (simp [Node.kind, Payload.kind, Kind.holdsBlocks, Kind.isChildless] at inline childless; done)
    | simp [lineAfter, Payload.kind, Kind.holdsBlocks]

theorem lineAfterAll_of_areShaped {source : Source} {parent : Payload} {nodes : List Node}
    (shaped : areShaped source (some parent) nodes = true)
    (inline : parent.kind.holdsBlocks = false) : lineAfterAll nodes = .begun := by
  induction nodes with
  | nil => rfl
  | cons node rest ih =>
    obtain ⟨first, more⟩ := areShaped_cons.mp shaped
    cases rest with
    | nil =>
      obtain ⟨noBlocks, childless⟩ := Payload.inline_of_fitsIn (isShaped_iff.mp first).1 inline
      exact lineAfter_of_inline noBlocks childless
    | cons next others => exact ih more

end Markdown

end CanonicalMarkdown
