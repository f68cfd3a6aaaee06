import CanonicalMarkdown.Unicode.WhiteSpace

namespace CanonicalMarkdown.Markdown

def needsBrackets (c : Char) : Bool :=
  Unicode.isWhiteSpace c || Unicode.isControl c || c = '<' || c = '>'

def escapeWith (special : Char → Bool) (text : List Char) : List Char :=
  text.flatMap fun c => if special c then ['\\', c] else [c]

/-- Whether every closing parenthesis has its opening one before it, with `depth` of them open,
    and none is left open. -/
def parenthesesBalance (depth : Nat) : List Char → Bool
  | [] => depth = 0
  | '(' :: rest => parenthesesBalance (depth + 1) rest
  | ')' :: rest => depth ≠ 0 && parenthesesBalance (depth - 1) rest
  | _ :: rest => parenthesesBalance depth rest

def isAsciiPunctuation (c : Char) : Bool := '!' ≤ c && c ≤ '~' && !c.isAlphanum

/-- A destination without brackets: a backslash before punctuation is escaped, and parentheses are
    unless they balance. -/
def bareDestination (balanced : Bool) : List Char → List Char
  | [] => []
  | c :: rest =>
    let escaped :=
      if c = '(' || c = ')' then !balanced
      else c = '\\' && rest.head?.any isAsciiPunctuation
    if escaped then '\\' :: c :: bareDestination balanced rest
    else c :: bareDestination balanced rest

def destinationChars (destination : List Char) (hasTitle : Bool) : List Char :=
  if destination = [] then (if hasTitle then ['<', '>'] else [])
  else if destination.any needsBrackets then
    '<' :: (escapeWith (fun c => c = '<' || c = '>' || c = '\\') destination ++ ['>'])
  else bareDestination (parenthesesBalance 0 destination) destination

def titleChars (title : List Char) : List Char :=
  '"' :: (escapeWith (fun c => c = '"' || c = '\\') title ++ ['"'])

def destinationText (destination : String) (hasTitle : Bool) : String :=
  String.ofList (destinationChars destination.toList hasTitle)

def titleText (title : String) : String := String.ofList (titleChars title.toList)

end CanonicalMarkdown.Markdown
