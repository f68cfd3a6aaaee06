import CanonicalMarkdown.Toml.Scalar

namespace CanonicalMarkdown.Toml

def isLineChar (c : Char) : Bool := c = '\t' || (' ' ≤ c && c ≠ '\x7f')

def charOfCode? (digits : List Char) : Option Char :=
  let code := digits.foldl (fun code c => 16 * code + hexValue c) 0
  if digits.all isHexDigit && code.isValidChar then some (Char.ofNat code) else none

def simpleEscape? : Char → Option Char
  | 'b' => some '\x08'
  | 't' => some '\t'
  | 'n' => some '\n'
  | 'f' => some '\x0c'
  | 'r' => some '\r'
  | 'e' => some '\x1b'
  | '"' => some '"'
  | '\\' => some '\\'
  | _ => none

def codeLength? : Char → Option Nat
  | 'x' => some 2
  | 'u' => some 4
  | 'U' => some 8
  | _ => none

def readEscape (text : List Char) : Option (Char × List Char) := do
  let letter :: rest := text | none
  match codeLength? letter with
  | some count =>
    if rest.length < count then none
    else return (← charOfCode? (rest.take count), rest.drop count)
  | none => return (← simpleEscape? letter, rest)

abbrev ReadText := Option (List Char × List Char)

def prepend (c : Char) (read : ReadText) : ReadText :=
  read.map fun (text, rest) => (c :: text, rest)

def readBasic : Nat → List Char → ReadText
  | 0, _ => none
  | limit + 1, text => do
    let c :: rest := text | none
    if c = '"' then return ([], rest)
    else if c = '\\' then
      let (escaped, rest) ← readEscape rest
      prepend escaped (readBasic limit rest)
    else if isLineChar c then prepend c (readBasic limit rest)
    else none

def readLiteral : List Char → ReadText
  | [] => none
  | c :: rest =>
    if c = '\'' then some ([], rest)
    else if isLineChar c then prepend c (readLiteral rest)
    else none

def newline? : List Char → Option (List Char)
  | '\n' :: rest => some rest
  | '\r' :: '\n' :: rest => some rest
  | _ => none

/-- The end of a string in three quotes: up to two more quotes belong to the string. -/
def closing? (quote : Char) (text : List Char) : ReadText :=
  let quotes := (text.takeWhile (· = quote)).length
  if quotes < 3 then none
  else
    let inside := min (quotes - 3) 2
    some (List.replicate inside quote, text.drop (inside + 3))

def skipJoin : Nat → List Char → List Char
  | 0, text => text
  | limit + 1, text =>
    match newline? text, text with
    | some rest, _ => skipJoin limit rest
    | none, c :: rest => if isBlank c then skipJoin limit rest else c :: rest
    | none, [] => []

def joinsLines (text : List Char) : Bool := (newline? (text.dropWhile isBlank)).isSome

def readLongBasic : Nat → List Char → ReadText
  | 0, _ => none
  | limit + 1, text =>
    match closing? '"' text, newline? text, text with
    | some closed, _, _ => some closed
    | none, some rest, _ => prepend '\n' (readLongBasic limit rest)
    | none, none, '\\' :: rest =>
      if joinsLines rest then readLongBasic limit (skipJoin limit rest)
      else do
        let (escaped, rest) ← readEscape rest
        prepend escaped (readLongBasic limit rest)
    | none, none, c :: rest =>
      if isLineChar c then prepend c (readLongBasic limit rest) else none
    | none, none, [] => none

def readLongLiteral : Nat → List Char → ReadText
  | 0, _ => none
  | limit + 1, text =>
    match closing? '\'' text, newline? text, text with
    | some closed, _, _ => some closed
    | none, some rest, _ => prepend '\n' (readLongLiteral limit rest)
    | none, none, c :: rest =>
      if isLineChar c then prepend c (readLongLiteral limit rest) else none
    | none, none, [] => none

def dropFirstNewline (text : List Char) : List Char := (newline? text).getD text

def readShortText (text : List Char) : ReadText :=
  match text with
  | '"' :: rest => readBasic (rest.length + 1) rest
  | '\'' :: rest => readLiteral rest
  | _ => none

def readText (text : List Char) : ReadText :=
  match text with
  | '"' :: '"' :: '"' :: rest => readLongBasic (rest.length + 1) (dropFirstNewline rest)
  | '\'' :: '\'' :: '\'' :: rest => readLongLiteral (rest.length + 1) (dropFirstNewline rest)
  | _ => readShortText text

end CanonicalMarkdown.Toml
