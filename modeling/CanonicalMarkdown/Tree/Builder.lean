import CanonicalMarkdown.Event
import CanonicalMarkdown.Tree.HtmlClosure
import CanonicalMarkdown.Tree.SourceLine
import CanonicalMarkdown.Tree.TextPieces

namespace CanonicalMarkdown

structure OpenNode where
  payload : Payload
  span : Span
  attributes : Attributes := {}
  children : List Node := []
  /-- Text that has not become nodes yet. -/
  run : List Piece := []
  buffer : String := ""
  /-- A paragraph of its own stands directly inside, or an item of this list is loose. -/
  loose : Bool := false
  contentColumn : Nat := 0
deriving Repr, Inhabited

namespace OpenNode

def kind (opened : OpenNode) : Kind := opened.payload.kind

def isLink (opened : OpenNode) : Bool :=
  opened.kind = .link || opened.kind = .image || opened.kind = .autoLink

/-- Content of these has padding and columns of its own. -/
def isPadded (opened : OpenNode) : Bool :=
  opened.kind = .listItem || opened.kind = .blockquote || opened.kind = .definitionDetails

def addText (opened : OpenNode) (span : Span) (text : String) : OpenNode :=
  match opened.payload with
  | .codeBlock _ => { opened with buffer := opened.buffer ++ text }
  | .fencedCodeBlock info lines _ =>
    { opened with
      buffer := opened.buffer ++ text, payload := .fencedCodeBlock info lines span.stop }
  | _ => { opened with run := opened.run ++ [⟨span, text⟩] }

def noteParagraph (opened : OpenNode) : OpenNode :=
  if opened.kind = .listItem || opened.kind = .definitionDetails then { opened with loose := true }
  else opened

end OpenNode

def paragraphAround (inlines : List Node) : List Node :=
  match inlines.head?, inlines.getLast? with
  | some first, some last =>
    let start := first.span.start
    [⟨.paragraph, ⟨start, max last.span.stop start⟩, {}, inlines⟩]
  | _, _ => []

/-- Puts paragraphs around the runs of inline nodes among the children; `pending` are the inline
    nodes since the last block. -/
def gatherParagraphs (pending : List Node) : List Node → List Node
  | [] => paragraphAround pending
  | child :: rest =>
    if child.kind.isBlock then paragraphAround pending ++ child :: gatherParagraphs [] rest
    else gatherParagraphs (pending ++ [child]) rest

def OpenNode.close (opened : OpenNode) : Node :=
  let finish (payload : Payload) (children : List Node) : Node :=
    ⟨payload, opened.span, opened.attributes, children⟩
  match opened.payload with
  | .codeBlock _ => finish (.codeBlock (Text.linesOf opened.buffer)) opened.children
  | .fencedCodeBlock info _ contentEnd =>
    finish (.fencedCodeBlock info (Text.linesOf opened.buffer) contentEnd) opened.children
  | .htmlBlock _ _ =>
    let (lines, closure) := detachClosure (Text.linesOf opened.buffer)
    finish (.htmlBlock lines closure) opened.children
  | .list style => finish (.list { style with tight := !opened.loose }) opened.children
  | .listItem offset => finish (.listItem offset) (gatherParagraphs [] opened.children)
  | .definitionDetails _ =>
    finish (.definitionDetails !opened.loose) (gatherParagraphs [] opened.children)
  | payload => finish payload opened.children

/-- A tree under construction: the innermost open node and those around it, innermost first. -/
structure Builder where
  source : Source
  linkify : Bool
  top : OpenNode
  outer : List OpenNode := []
deriving Inhabited

namespace Builder

def ofSource (source : Source) (linkify : Bool) : Builder :=
  { source, linkify, top := { payload := .document, span := ⟨0, source.size⟩ } }

def insideLink (builder : Builder) : Bool := (builder.top :: builder.outer).any OpenNode.isLink

def flush (builder : Builder) (lineBreak : Option LineBreak) : Builder :=
  let linkify := builder.linkify && !builder.insideLink
  let nodes := inlineNodes builder.source linkify builder.top.run lineBreak
  { builder with
    top := { builder.top with run := [], children := builder.top.children ++ nodes } }

def append (builder : Builder) (node : Node) : Builder :=
  let flushed := builder.flush none
  { flushed with top := { flushed.top with children := flushed.top.children ++ [node] } }

def push (builder : Builder) (opened : OpenNode) : Builder :=
  let flushed := builder.flush none
  { flushed with top := opened, outer := flushed.top :: flushed.outer }

def close (builder : Builder) : Builder :=
  match builder.outer with
  | [] => builder
  | parent :: outer =>
    let closed := (builder.flush none).top
    let loosens := closed.kind = .listItem && closed.loose
    { builder with top := { parent with loose := parent.loose || loosens }, outer }.append
      closed.close

/-- The content column of the item that encloses what is opened next, if no quote or details block
    lies between. -/
def containerColumn (builder : Builder) : Nat :=
  match (builder.top :: builder.outer).find? OpenNode.isPadded with
  | some opened => if opened.kind = .listItem then opened.contentColumn else 0
  | none => 0

def codeSpan (source : Source) (span : Span) (code : String) : Node :=
  let fence := (source.slice span).toList.takeWhile (· = '`')
  let delimiter := max fence.length 1
  let start := span.start + delimiter
  let inner : Span := ⟨start, max (span.stop - delimiter) start⟩
  let payload : Payload :=
    if '\n' ∈ (source.slice inner).toList then .string code
    else .text { segment := inner, literal := code, raw := true }
  ⟨.codeSpan delimiter, span, {}, [.leaf payload inner]⟩

def headingAttributes (id : Option String) (classes : List String)
    (attributes : List Attribute) : Attributes :=
  ⟨id.toList.map (fun id => ⟨"id", some id⟩)
    ++ classes.map (fun name => ⟨"class", some name⟩) ++ attributes⟩

def linkTarget (destination title : String) : LinkTarget :=
  ⟨destination, if title.isEmpty then none else some title⟩

def openItem (builder : Builder) (span : Span) : OpenNode :=
  let layout := builder.source.itemStart span.start
  let offset := layout.column - builder.containerColumn + layout.marker + 1
  { payload := .listItem offset, span
    contentColumn := layout.column + layout.marker + layout.space }

def openList (source : Source) (span : Span) (start : Option Nat) : OpenNode :=
  { span, payload := .list {
      start
      marker := source.markerChar span.start start.isSome
      tight := true
      blankBefore := source.followsBlankLine span.start } }

def openFence (source : Source) (span : Span) (info : String) : OpenNode :=
  let info := String.ofList (Unicode.trim info.toList)
  { payload := .fencedCodeBlock info [] (min (source.lineEnd span.start) span.stop), span }

def openNode (builder : Builder) (container : Container) (span : Span) : OpenNode :=
  match container with
  | .paragraph => { payload := .paragraph, span }
  | .heading level id classes attributes =>
    { payload := .heading level, span, attributes := headingAttributes id classes attributes }
  | .blockQuote => { payload := .blockquote, span }
  | .indentedCode => { payload := .codeBlock [], span }
  | .fencedCode info => openFence builder.source span info
  | .htmlBlock => { payload := .htmlBlock [] none, span }
  | .list start => openList builder.source span start
  | .item => builder.openItem span
  | .definitionList => { payload := .definitionList, span }
  | .definitionTitle => { payload := .definitionTerm, span }
  | .definition => { payload := .definitionDetails true, span }
  | .table alignments => { payload := .table alignments, span }
  | .tableHead => { payload := .tableHead, span }
  | .tableRow => { payload := .tableRow, span }
  | .tableCell => { payload := .tableCell, span }
  | .emphasis => { payload := .emphasis 1, span }
  | .strong => { payload := .emphasis 2, span }
  | .link destination title => { payload := .link (linkTarget destination title), span }
  | .image destination title => { payload := .image (linkTarget destination title), span }
  | .autoLink url => { payload := .autoLink url false, span }
  | .email address => { payload := .autoLink address true, span }

def start (builder : Builder) (container : Container) (span : Span) : Builder :=
  let noted :=
    if container = .paragraph then { builder with top := builder.top.noteParagraph } else builder
  noted.push (builder.openNode container span)

def rawHtml (builder : Builder) (span : Span) (html : String) : Builder :=
  builder.append (.leaf (.rawHtml [html]) span)

def html (builder : Builder) (span : Span) (html : String) : Builder :=
  if builder.top.kind = .htmlBlock then
    { builder with top := { builder.top with buffer := builder.top.buffer ++ html } }
  else builder.rawHtml span html

def add (builder : Builder) (event : Event) : Builder :=
  match event.markup with
  | .start container => builder.start container event.span
  | .close => builder.close
  | .text text => { builder with top := builder.top.addText event.span text }
  | .code code => builder.append (codeSpan builder.source event.span code)
  | .html html => builder.html event.span html
  | .inlineHtml html => builder.rawHtml event.span html
  | .softBreak => builder.flush (some ⟨event.span.start, false⟩)
  | .hardBreak => builder.flush (some ⟨event.span.start, true⟩)
  | .rule => builder.append (.leaf .thematicBreak event.span)

def closeOuter (builder : Builder) : Nat → Builder
  | 0 => builder
  | count + 1 => builder.close.closeOuter count

def finish (builder : Builder) : Node :=
  ((builder.closeOuter builder.outer.length).flush none).top.close

end Builder

def Document.ofEvents (source : Source) (linkify : Bool) (events : List Event) : Document :=
  ⟨source, (events.foldl Builder.add (.ofSource source linkify)).finish⟩

end CanonicalMarkdown
