import CanonicalMarkdown.Text.Lines
import CanonicalMarkdown.Unicode.WhiteSpace

namespace CanonicalMarkdown.Command

inductive Style
  | success | failure | nodeHeader | field
deriving DecidableEq, Repr, Inhabited

def Style.code : Style → String
  | .success => "\x1b[32m"
  | .failure => "\x1b[31m"
  | .nodeHeader => "\x1b[36m\x1b[1m"
  | .field => "\x1b[2m"

def Style.paint (style : Style) (colored : Bool) (text : String) : String :=
  if colored then style.code ++ text ++ "\x1b[0m" else text

def withoutLineEnd (line : List Char) : List Char :=
  match line.reverse with
  | '\n' :: '\r' :: rest => rest.reverse
  | '\n' :: rest => rest.reverse
  | _ => line

def isNodeLine (body : List Char) : Bool := body.getLast? = some '\x7b' || body = ['\x7d']

def paintDumpLine (colored : Bool) (line : List Char) : String :=
  let line := withoutLineEnd line
  let body := line.dropWhile Unicode.isWhiteSpace
  let indent := line.takeWhile Unicode.isWhiteSpace
  let style := if isNodeLine body then Style.nodeHeader else .field
  String.ofList indent ++ style.paint colored (String.ofList body) ++ "\n"

def paintDump (colored : Bool) (dump : String) : String :=
  String.join ((Text.lines dump.toList).map (paintDumpLine colored))

end CanonicalMarkdown.Command
