import CanonicalMarkdown.DispatchTable
import CanonicalMarkdown.Html.Escape

namespace CanonicalMarkdown.Html

def classNames (attributes : Attributes) : List String :=
  (attributes.entries.filter (·.name = "class")).filterMap (·.value)

def quotedAttribute (name value : String) : String :=
  " " ++ name ++ "=\"" ++ escape value ++ "\""

def attributeText (entry : Attribute) : String :=
  match entry.value with
  | some value => quotedAttribute entry.name value
  | none => " " ++ entry.name

def attributeTexts (classes : List String) : List Attribute → List String
  | [] => []
  | entry :: rest =>
    if entry.name ≠ "class" then attributeText entry :: attributeTexts classes rest
    else if classes.isEmpty then attributeTexts classes rest
    else quotedAttribute "class" (" ".intercalate classes) :: attributeTexts [] rest

def attributesText (attributes : Attributes) : String :=
  String.join (attributeTexts (classNames attributes) attributes.entries)

def openTag (name attributes : String) : String := "<" ++ name ++ attributes ++ ">"

def closeTag (name : String) : String := "</" ++ name ++ ">"

def headingName (level : Nat) : String := "h" ++ toString level

def isBareParagraph (view : View) : Bool :=
  match view.parentPayload? with
  | some (.listItem _) => (view.ancestor? .list).any fun list => list.node.isTightList
  | some (.definitionDetails tight) => tight
  | _ => false

def listOpening (style : ListStyle) : String :=
  match style.start with
  | none => "<ul>\n"
  | some 1 => "<ol>\n"
  | some start => "<ol start=\"" ++ toString start ++ "\">\n"

def listClosing (style : ListStyle) : String :=
  if style.start.isSome then "</ol>\n" else "</ul>\n"

def itemReply (view : View) (phase : Phase) : Reply :=
  match view.parentPayload?, phase with
  | some (.list style), .enter =>
    let opensInline := style.tight && view.node.children.head?.any (·.kind = .paragraph)
    .descend (.text "<li>" ::
      if view.node.children.isEmpty || opensInline then [] else [.text "\n"])
  | some (.list _), .leave => .descend [.text "</li>\n"]
  | _, _ => .fail (.misplaced .listItem "list item outside a list")

def language? (info : String) : Option String :=
  let word := (Unicode.trimStart info.toList).takeWhile fun c => !Unicode.isWhiteSpace c
  if word.isEmpty then none else some (String.ofList word)

def codeBlock (language : Option String) (lines : List String) : List Stroke :=
  let tag := match language with
    | some language => "<code class=\"language-" ++ escape language ++ "\">"
    | none => "<code>"
  [.text ("<pre>" ++ tag ++ escape (String.join lines) ++ "</code></pre>"), .text "\n"]

def hasRows (table : Node) : Bool := table.children.any (·.kind = .tableRow)

def cellName (view : View) : String := if view.within .tableHead then "th" else "td"

def columnStyle : Alignment → String
  | .none => ""
  | .left => " style=\"text-align:left\""
  | .center => " style=\"text-align:center\""
  | .right => " style=\"text-align:right\""

def cellAlignment (view : View) : Alignment :=
  match view.ancestor? .table with
  | some ⟨⟨.table alignments, _, _, _⟩, _, _⟩ => alignments[view.place.index]?.getD .none
  | _ => .none

def runText (run : TextRun) : List Stroke :=
  .text (escape run.literal) ::
    if run.hardBreak then [.text "<br />\n"] else if run.softBreak then [.text "\n"] else []

def emphasisName (level : Nat) : String := if 2 ≤ level then "strong" else "em"

def titleAttribute (title : Option String) : String :=
  match title with
  | some title => quotedAttribute "title" title
  | none => ""

def linkOpening (target : LinkTarget) (attributes : Attributes) : String :=
  "<a href=\"" ++ escapeAddress target.destination ++ "\"" ++ titleAttribute target.title
    ++ attributesText attributes ++ ">"

def image (target : LinkTarget) (description : String) : String :=
  "<img src=\"" ++ escapeAddress target.destination ++ "\"" ++ titleAttribute target.title
    ++ quotedAttribute "alt" description ++ " />"

def autoLink (url : String) (email : Bool) (attributes : Attributes) : String :=
  let address := if email then "mailto:" ++ url else url
  "<a href=\"" ++ escapeAddress address ++ "\"" ++ attributesText attributes ++ ">"
    ++ escape url ++ "</a>"

def enter (view : View) : Reply :=
  match view.node.payload with
  | .heading level =>
    .descend [.text (openTag (headingName level) (attributesText view.node.attributes))]
  | .paragraph => .descend (if isBareParagraph view then [] else [.text "<p>"])
  | .blockquote => .descend [.text "<blockquote>\n"]
  | .list style => .descend [.text (listOpening style)]
  | .listItem _ => itemReply view .enter
  | .codeBlock lines => .skip (codeBlock none lines)
  | .fencedCodeBlock info lines _ => .skip (codeBlock (language? info) lines)
  | .htmlBlock lines closure => .skip ((lines ++ closure.toList).map .text)
  | .thematicBreak => .skip [.text "<hr />\n"]
  | .table _ => .descend [.text "<table>\n"]
  | .tableHead => .descend [.text "<thead>\n<tr>\n"]
  | .tableRow =>
    let follows := view.place.prev?.any (·.kind = .tableRow)
    .descend ((if follows then [] else [.text "<tbody>\n"]) ++ [.text "<tr>\n"])
  | .tableCell => .descend [.text (openTag (cellName view) (columnStyle (cellAlignment view)))]
  | .definitionList => .descend [.text "<dl>\n"]
  | .definitionTerm => .descend [.text "<dt>"]
  | .definitionDetails tight => .descend [.text (if tight then "<dd>" else "<dd>\n")]
  | .text run => .descend (runText run)
  | .string value => .descend [.text (escape value)]
  | .emphasis level => .descend [.text (openTag (emphasisName level) "")]
  | .codeSpan _ => .skip [.text ("<code>" ++ escape view.node.plainText ++ "</code>")]
  | .link target => .descend [.text (linkOpening target view.node.attributes)]
  | .image target => .skip [.text (image target view.node.plainText)]
  | .autoLink url email => .skip [.text (autoLink url email view.node.attributes)]
  | .rawHtml segments => .skip (segments.map .text)
  | .document => .descend []

def leave (view : View) : Reply :=
  match view.node.payload with
  | .heading level => .descend [.text (closeTag (headingName level) ++ "\n")]
  | .paragraph =>
    .descend (if !isBareParagraph view then [.text "</p>\n"]
      else if view.place.next?.isSome then [.text "\n"] else [])
  | .blockquote => .descend [.text "</blockquote>\n"]
  | .list style => .descend [.text (listClosing style)]
  | .listItem _ => itemReply view .leave
  | .table _ =>
    .descend ((if hasRows view.node then [.text "</tbody>\n"] else []) ++ [.text "</table>\n"])
  | .tableHead => .descend [.text "</tr>\n</thead>\n"]
  | .tableRow => .descend [.text "</tr>\n"]
  | .tableCell => .descend [.text (closeTag (cellName view) ++ "\n")]
  | .definitionList => .descend [.text "</dl>\n"]
  | .definitionTerm => .descend [.text "</dt>\n"]
  | .definitionDetails _ => .descend [.text "</dd>\n"]
  | .emphasis level => .descend [.text (closeTag (emphasisName level))]
  | .link _ => .descend [.text "</a>"]
  | _ => .descend []

def rule : Rule := .ofReplies fun view phase =>
  match phase with
  | .enter => enter view
  | .leave => leave view

def kinds : List Kind := Kind.all.filter (· ≠ .document)

def provider (priority : Int) : Provider := ⟨priority, kinds.map fun kind => (kind, rule)⟩

end CanonicalMarkdown.Html
