import CanonicalMarkdown.DispatchTable
import CanonicalMarkdown.Markdown.Delimiters
import CanonicalMarkdown.Markdown.Destination

namespace CanonicalMarkdown.Markdown

def paddedLines : List String → List Stroke
  | [] => []
  | [line] => [.text line]
  | line :: rest => .text line :: .padding :: paddedLines rest

def paddedText (text : String) : List Stroke := paddedLines (Text.linesOf text)

def linePadding (line : String) : Stroke := if line = "\n" then .blankPadding else .padding

def endLine (last : Option String) : List Stroke :=
  if last.any fun line => !Text.endsLine line then [.text "\n"] else []

def attributeText : Attribute → String
  | ⟨"id", some value⟩ => "#" ++ value
  | ⟨"class", some value⟩ => "." ++ value
  | ⟨name, some value⟩ => name ++ "=" ++ value
  | ⟨name, none⟩ => name

def headingAttributes (attributes : Attributes) : List Stroke :=
  if attributes.isEmpty then []
  else [.text " \x7b", .text (" ".intercalate (attributes.entries.map attributeText)),
    .text "\x7d"]

def indentedLine (line : String) : List Stroke :=
  if line = "\n" then [.text line] else [.text "    ", .text line]

def indentedCode : List String → List Stroke
  | [] => []
  | first :: rest =>
    indentedLine first ++ rest.flatMap (fun line => linePadding line :: indentedLine line)
      ++ endLine (first :: rest).getLast?

def fenceOf (view : View) (info : String) (lines : List String) (contentEnd : Nat) : Fence :=
  .choose (view.source.slice ⟨contentEnd, view.node.span.stop⟩).toList lines info

def fenceOpening (fence : Fence) (info : String) (lines : List String) : List Stroke :=
  .text fence.text :: .text info :: .text "\n" ::
    lines.flatMap fun line => [linePadding line, .text line]

def fenceClosing (fence : Fence) (lines : List String) : List Stroke :=
  endLine lines.getLast? ++ [.padding, .text fence.text]

def htmlLines : List String → List Stroke
  | [] => []
  | first :: rest => .text first :: rest.flatMap fun line => [linePadding line, .text line]

def htmlClosure (lines : List String) : Option String → List Stroke
  | some closure =>
    (if lines.isEmpty then [] else [.padding]) ++ .text closure :: endLine (some closure)
  | none => endLine lines.getLast?

def isBulletList (node : Node) : Bool :=
  match node.payload with
  | .list style => style.start.isNone
  | _ => false

/-- Bullet lists next to each other take turns with the bullet, or they would read back as one. -/
def listBullet (list : Place) : Char :=
  if (list.earlier.takeWhile isBulletList).length % 2 = 0 then '-' else '*'

def itemMarker (list : Place) (style : ListStyle) (index : Nat) : String :=
  match style.start with
  | some start => toString (start + index) ++ String.singleton style.marker ++ " "
  | none => String.singleton (listBullet list) ++ " "

/-- Writes the marker of an item so that its content starts at the offset, and opens a level of
    that width. -/
def openItem (marker : String) (offset : Nat) : List Stroke :=
  let width := marker.utf8ByteSize
  [.text (Text.repeated (offset - width) ' '), .text marker,
    .push (Text.repeated (max offset width) ' ')]

def itemReply (view : View) (offset : Nat) (phase : Phase) : Reply :=
  match view.parent? with
  | none => .fail (.misplaced .listItem "list item without a parent")
  | some parent =>
    match parent.node.payload, phase with
    | .list style, .enter =>
      .descend (openItem (itemMarker parent style view.place.index) offset)
    | .list _, .leave => .descend [.pop]
    | payload, _ => .fail (.misplaced .listItem ("list item inside " ++ payload.kind.name))

def columnRule : Alignment → String
  | .none => "---"
  | .left => ":--"
  | .center => ":-:"
  | .right => "--:"

def columnRules (alignments : List Alignment) : List Stroke :=
  [.text "\n", .padding, .text "|"] ++
    alignments.flatMap fun alignment => [.text " ", .text (columnRule alignment), .text " |"]

def tableHeadEnd (view : View) : Reply :=
  match view.parentPayload? with
  | some (.table alignments) => .descend (columnRules alignments)
  | _ => .fail (.misplaced .tableHead "table head outside a table")

def runText (source : Source) (run : TextRun) : List Stroke :=
  let copied := source.slice run.segment
  if run.raw then paddedText copied
  else if copied.isEmpty then [.text run.literal]
  else [.text copied]

/-- A line break inside a heading is a space, since a heading has one line. -/
def runBreak (view : View) (run : TextRun) : List Stroke :=
  if !run.hardBreak && !run.softBreak then []
  else if view.within .heading then [.text " "]
  else if run.hardBreak then [.text "\\", .text "\n", .padding]
  else [.text "\n", .padding]

def codeSpanChild (source : Source) (child : Node) : List Stroke :=
  match child.payload with
  | .text run => paddedText (source.slice run.segment)
  | .string code => [.text (String.ofList (spacedCode code.toList))]
  | _ => []

def targetStrokes (target : LinkTarget) : List Stroke :=
  [.text "](", .text (destinationText target.destination target.title.isSome)]
    ++ (match target.title with
      | some title => [.text " ", .text (titleText title)]
      | none => [])
    ++ [.text ")"]

def imageDescription (source : Source) (children : List Node) : List Stroke :=
  match children.head?, children.getLast? with
  | some first, some last => paddedText (source.slice ⟨first.span.start, last.span.stop⟩)
  | _, _ => []

def autoLinkText (source : Source) (span : Span) (url : String) : List Stroke :=
  let label := source.slice span
  if label.isEmpty then [.text "<", .text url, .text ">"] else [.text label]

def enter (view : View) : Reply :=
  match view.node.payload with
  | .heading level => .descend [.text (Text.repeated level '#'), .text " "]
  | .blockquote => .descend [.text "> ", .push "> "]
  | .codeBlock lines => .skip (indentedCode lines)
  | .fencedCodeBlock info lines contentEnd =>
    .descend (fenceOpening (fenceOf view info lines contentEnd) info lines)
  | .htmlBlock lines _ => .descend (htmlLines lines)
  | .listItem offset => itemReply view offset .enter
  | .thematicBreak => .skip [.text "***\n"]
  | .tableHead | .tableRow => .descend [.text "|"]
  | .tableCell => .descend [.text " "]
  | .definitionDetails _ => .descend [.text ": ", .push "  "]
  | .text run => .descend (runText view.source run ++ runBreak view run)
  | .string value => .descend [.text value]
  | .emphasis level =>
    .descend [.text (Text.repeated level (delimiterOf view.source view.node))]
  | .codeSpan delimiter =>
    let fence := Text.repeated delimiter '`'
    .skip (.text fence :: view.node.children.flatMap (codeSpanChild view.source) ++ [.text fence])
  | .link _ => .descend [.text "["]
  | .image target =>
    .skip (.text "![" :: imageDescription view.source view.node.children ++ targetStrokes target)
  | .autoLink url _ => .skip (autoLinkText view.source view.node.span url)
  | .rawHtml segments => .skip (segments.map .text)
  | .document | .paragraph | .list _ | .table _ | .definitionList | .definitionTerm => .descend []

def leave (view : View) : Reply :=
  match view.node.payload with
  | .heading _ => .descend (headingAttributes view.node.attributes)
  | .blockquote | .definitionDetails _ => .descend [.pop]
  | .fencedCodeBlock info lines contentEnd =>
    .descend (fenceClosing (fenceOf view info lines contentEnd) lines)
  | .htmlBlock lines closure => .descend (htmlClosure lines closure)
  | .listItem offset => itemReply view offset .leave
  | .tableHead => tableHeadEnd view
  | .tableCell => .descend [.text " |"]
  | .emphasis level =>
    .descend [.text (Text.repeated level (delimiterOf view.source view.node))]
  | .link target => .descend (targetStrokes target)
  | _ => .descend []

def rule : Rule := .ofReplies fun view phase =>
  match phase with
  | .enter => enter view
  | .leave => leave view

def kinds : List Kind :=
  [.heading, .blockquote, .codeBlock, .fencedCodeBlock, .htmlBlock, .listItem, .thematicBreak,
    .tableHead, .tableRow, .tableCell, .definitionDetails, .text, .string, .emphasis, .codeSpan,
    .link, .image, .autoLink, .rawHtml]

def provider (priority : Int) : Provider := ⟨priority, kinds.map fun kind => (kind, rule)⟩

end CanonicalMarkdown.Markdown
