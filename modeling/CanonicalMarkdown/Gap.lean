import CanonicalMarkdown.View

namespace CanonicalMarkdown

inductive Gap
  | newline | blankLine
deriving DecidableEq, Repr, Inhabited

namespace Gap

/-- A list may interrupt a paragraph when it has bullets or starts at one. -/
def interrupts (node : Node) : Bool :=
  match node.payload with
  | .list style => style.start.all (· = 1) && !style.blankBefore
  | _ => false

def endsOwnLine : Kind → Bool
  | .htmlBlock | .codeBlock | .thematicBreak => true
  | _ => false

def isTightDetails (node : Node) : Bool :=
  match node.payload with
  | .definitionDetails tight => tight
  | _ => false

def isDefinitionPart : Kind → Bool
  | .definitionTerm | .definitionDetails => true
  | _ => false

def isTableLine : Kind → Bool
  | .tableHead | .tableRow => true
  | _ => false

/-- Blocks keep a blank line between them, unless it would loosen a tight list or details block,
    part a table, or the blocks hold together without one. -/
def between (node : Node) (parent? grandparent? : Option Node) (next : Node) : Gap :=
  let tightItem := node.kind = .listItem && parent?.any Node.isTightList
  let inTightItem := parent?.any (·.kind = .listItem) && grandparent?.any Node.isTightList
  let definition := isDefinitionPart node.kind && isTightDetails next
  if tightItem || inTightItem || interrupts next || endsOwnLine node.kind
    || isTableLine node.kind || definition then .newline
  else .blankLine

end Gap

/-- Writes a gap. A block that ended its own line has left a line without padding behind. -/
def Page.writeGap (page : Page) (gap : Gap) : Page :=
  let page := if page.onNewLine then page.writeBlankPadding else page
  let page := if gap = .blankLine then (page.write "\n").writeBlankPadding else page
  (page.write "\n").writePadding

end CanonicalMarkdown
