namespace CanonicalMarkdown.Stream

inductive Json
  | null
  | count (value : Nat)
  | string (value : String)
  | array (items : List Json)
deriving Repr, Inhabited

namespace Json

def isSpace (c : Char) : Bool := c = ' ' || c = '\t' || c = '\n' || c = '\r'

def skipSpace (text : List Char) : List Char := text.dropWhile isSpace

def hexDigit? (c : Char) : Option Nat :=
  if c.isDigit then some (c.toNat - '0'.toNat)
  else if 'a' ≤ c.toLower && c.toLower ≤ 'f' then some (c.toLower.toNat - 'a'.toNat + 10)
  else none

def readUnit : List Char → Option (Nat × List Char)
  | a :: b :: c :: d :: rest => do
    let value := ((← hexDigit? a) * 16 + (← hexDigit? b)) * 256
      + ((← hexDigit? c) * 16 + (← hexDigit? d))
    return (value, rest)
  | _ => none

def readCode (text : List Char) : Option (Char × List Char) := do
  let (unit, rest) ← readUnit text
  if 0xd800 ≤ unit && unit < 0xdc00 then
    let '\\' :: 'u' :: rest := rest | none
    let (low, rest) ← readUnit rest
    if 0xdc00 ≤ low && low < 0xe000 then
      return (Char.ofNat (0x10000 + (unit - 0xd800) * 0x400 + (low - 0xdc00)), rest)
    else none
  else return (Char.ofNat unit, rest)

def simpleEscape? : Char → Option Char
  | '"' => some '"'
  | '\\' => some '\\'
  | '/' => some '/'
  | 'b' => some '\x08'
  | 'f' => some '\x0c'
  | 'n' => some '\n'
  | 'r' => some '\r'
  | 't' => some '\t'
  | _ => none

def readChar : List Char → Option (Char × List Char)
  | '\\' :: 'u' :: rest => readCode rest
  | '\\' :: letter :: rest => (simpleEscape? letter).map fun c => (c, rest)
  | '\\' :: [] => none
  | c :: rest => some (c, rest)
  | [] => none

def readText : Nat → List Char → Option (List Char × List Char)
  | 0, _ => none
  | limit + 1, text =>
    match text with
    | '"' :: rest => some ([], rest)
    | _ => do
      let (c, rest) ← readChar text
      let (text, rest) ← readText limit rest
      return (c :: text, rest)

mutual

def readValue : Nat → List Char → Option (Json × List Char)
  | 0, _ => none
  | limit + 1, text =>
    match skipSpace text with
    | 'n' :: 'u' :: 'l' :: 'l' :: rest => some (.null, rest)
    | '"' :: rest => do
      let (written, rest) ← readText (rest.length + 1) rest
      return (.string (String.ofList written), rest)
    | '[' :: rest =>
      match skipSpace rest with
      | ']' :: rest => some (.array [], rest)
      | rest => do
        let (items, rest) ← readItems limit rest
        return (.array items, rest)
    | text =>
      let digits := text.takeWhile Char.isDigit
      match (String.ofList digits).toNat? with
      | some value => some (.count value, text.drop digits.length)
      | none => none

def readItems : Nat → List Char → Option (List Json × List Char)
  | 0, _ => none
  | limit + 1, text => do
    let (item, rest) ← readValue limit text
    match skipSpace rest with
    | ',' :: rest =>
      let (items, rest) ← readItems limit rest
      return (item :: items, rest)
    | ']' :: rest => return ([item], rest)
    | _ => none

end

def read (text : String) : Option Json := do
  let text := text.toList
  let (value, rest) ← readValue (2 * text.length + 2) text
  if (skipSpace rest).isEmpty then return value else none

end Json

end CanonicalMarkdown.Stream
