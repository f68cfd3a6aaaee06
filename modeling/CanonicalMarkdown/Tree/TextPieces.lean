import CanonicalMarkdown.Node
import CanonicalMarkdown.Tree.BareUrl

namespace CanonicalMarkdown

structure Piece where
  span : Span
  literal : String
deriving DecidableEq, Repr, Inhabited

structure LineBreak where
  offset : Nat
  hard : Bool
deriving DecidableEq, Repr, Inhabited

def Node.ofText (span : Span) (literal : String) : Node :=
  .leaf (.text { segment := span, literal }) span

def Node.ofBareUrl (span : Span) (url : String) : Node :=
  ⟨.autoLink url false, span, {}, [.ofText span url]⟩

/-- What a piece reads as between two offsets. A piece that does not read as it is written cannot
    be cut. -/
def Piece.between (source : Source) (piece : Piece) (start stop : Nat) : Option String :=
  let first := max piece.span.start start
  let last := min piece.span.stop stop
  if last ≤ first then some ""
  else if first = piece.span.start ∧ last = piece.span.stop then some piece.literal
  else if source.slice? piece.span = some piece.literal.toList then
    (Text.slice? piece.literal.toList (first - piece.span.start) (last - piece.span.start)).map
      String.ofList
  else none

def textBetween (source : Source) (run : List Piece) (start stop : Nat) : Option String :=
  (run.mapM fun piece => Piece.between source piece start stop).map String.join

/-- The nodes up to the last address that can be cut out, and the offset behind it. -/
def splitAtUrls (source : Source) (run : List Piece) (cursor : Nat) :
    List Span → List Node × Nat
  | [] => ([], cursor)
  | url :: more =>
    match textBetween source run url.start url.stop,
        textBetween source run cursor url.start with
    | some label, some before =>
      let (nodes, last) := splitAtUrls source run url.stop more
      let text := if cursor < url.start then [Node.ofText ⟨cursor, url.start⟩ before] else []
      (text ++ .ofBareUrl url label :: nodes, last)
    | _, _ => splitAtUrls source run cursor more

def textFrom (run : List Piece) (offset : Nat) : String :=
  String.join ((run.filter (offset ≤ ·.span.start)).map (·.literal))

def runNodes (source : Source) (linkify : Bool) (run : List Piece) : List Node :=
  match run.head?, run.getLast? with
  | some first, some last =>
    let start := first.span.start
    let stop := max last.span.stop start
    let urls := if linkify then BareUrl.find source ⟨start, stop⟩ else []
    let (nodes, cursor) := splitAtUrls source run start urls
    if cursor < stop || nodes.isEmpty then
      let literal := (textBetween source run cursor stop).getD (textFrom run cursor)
      nodes ++ [.ofText ⟨cursor, stop⟩ literal]
    else nodes
  | _, _ => []

def TextRun.withBreak (run : TextRun) (hard : Bool) : TextRun :=
  if hard then { run with hardBreak := true } else { run with softBreak := true }

/-- Puts a line break on the last node, or on an empty text behind it if that is no text. -/
def addBreak (nodes : List Node) (lineBreak : LineBreak) : List Node :=
  match nodes.getLast? with
  | some ⟨.text run, span, attributes, children⟩ =>
    nodes.dropLast ++ [⟨.text (run.withBreak lineBreak.hard), span, attributes, children⟩]
  | _ =>
    let span : Span := ⟨lineBreak.offset, lineBreak.offset⟩
    let run : TextRun := { segment := span, literal := "" }
    nodes ++ [.leaf (.text (run.withBreak lineBreak.hard)) span]

def inlineNodes (source : Source) (linkify : Bool) (run : List Piece)
    (lineBreak : Option LineBreak) : List Node :=
  let nodes := runNodes source linkify run
  match lineBreak with
  | some lineBreak => addBreak nodes lineBreak
  | none => nodes

end CanonicalMarkdown
