import CanonicalMarkdown.Toml.Text

namespace CanonicalMarkdown.Toml

def skipBlanks (text : List Char) : List Char := text.dropWhile isBlank

def skipComment : List Char → List Char
  | '#' :: rest => rest.dropWhile isLineChar
  | text => text

def skipSpace : Nat → List Char → List Char
  | 0, text => text
  | limit + 1, text =>
    let text := skipComment (skipBlanks text)
    match newline? text with
    | some rest => skipSpace limit rest
    | none => text

def skipAllSpace (text : List Char) : List Char := skipSpace (text.length + 1) text

def endOfLine? (text : List Char) : Option (List Char) :=
  match skipComment (skipBlanks text) with
  | [] => some []
  | text => newline? text

def isKeyChar (c : Char) : Bool := c.isAlphanum || c = '_' || c = '-'

/-- Arrays and tables between braces nest at most this deep, and a key has at most this many
    parts. -/
def maxDepth : Nat := 80

def readSimpleKey (text : List Char) : Option (String × List Char) :=
  match readShortText text with
  | some (key, rest) => some (String.ofList key, rest)
  | none =>
    let key := text.takeWhile isKeyChar
    if key.isEmpty then none else some (String.ofList key, text.drop key.length)

def readKey : (limit : Nat) → List Char → Option (List String × List Char)
  | 0, _ => none
  | limit + 1, text => do
    let (key, rest) ← readSimpleKey (skipBlanks text)
    match skipBlanks rest with
    | '.' :: rest =>
      let (keys, rest) ← readKey limit rest
      return (key :: keys, rest)
    | rest => return ([key], rest)

def readAssignment (skip : List Char → List Char) (text : List Char) :
    Option (List String × List Char) := do
  let (key, rest) ← readKey maxDepth text
  let '=' :: rest := skip rest | none
  return (key, skip rest)

mutual

/-- A value; at most `limit` steps are taken below it, and `depth` brackets or braces opened within
    one another. -/
def readValue : (limit depth : Nat) → List Char → Option (Value × List Char)
  | 0, _, _ => none
  | limit + 1, depth, text =>
    match depth, text with
    | 0, '[' :: _ => none
    | 0, '\x7b' :: _ => none
    | depth + 1, '[' :: rest => do
      let (items, rest) ← readItems limit depth rest
      return (.array items, rest)
    | depth + 1, '\x7b' :: rest => do
      let (entries, rest) ← readPairs limit depth [] rest
      return (.table .inline entries, rest)
    | _, _ =>
      if text.head?.any fun c => c = '"' || c = '\'' then do
        let (written, rest) ← readText text
        return (.text (String.ofList written), rest)
      else readScalar text

def readItems : (limit depth : Nat) → List Char → Option (List Value × List Char)
  | 0, _, _ => none
  | limit + 1, depth, text =>
    match skipAllSpace text with
    | ']' :: rest => some ([], rest)
    | text => do
      let (item, rest) ← readValue limit depth text
      match skipAllSpace rest with
      | ',' :: rest =>
        let (items, rest) ← readItems limit depth rest
        return (item :: items, rest)
      | ']' :: rest => return ([item], rest)
      | _ => none

def readPairs : (limit depth : Nat) → Entries → List Char → Option (Entries × List Char)
  | 0, _, _, _ => none
  | limit + 1, depth, entries, text =>
    match skipAllSpace text with
    | '\x7d' :: rest => some (entries, rest)
    | text => do
      let (key, rest) ← readAssignment skipAllSpace text
      let (value, rest) ← readValue limit depth rest
      let entries ← insertDotted key.dropLast (key.getLastD "") value .dotted entries
      match skipAllSpace rest with
      | ',' :: rest => readPairs limit depth entries rest
      | '\x7d' :: rest => return (entries, rest)
      | _ => none

end

inductive Statement
  | pair (key : List String) (value : Value)
  | header (path : List String)
  | itemHeader (path : List String)
deriving Repr, Inhabited

def readStatement (text : List Char) : Option (Statement × List Char) :=
  match text with
  | '[' :: '[' :: rest => do
    let (path, rest) ← readKey maxDepth rest
    let ']' :: ']' :: rest := rest | none
    return (.itemHeader path, rest)
  | '[' :: rest => do
    let (path, rest) ← readKey maxDepth rest
    let ']' :: rest := rest | none
    return (.header path, rest)
  | _ => do
    let (key, rest) ← readAssignment skipBlanks text
    let (value, rest) ← readValue (2 * rest.length + 2) maxDepth rest
    return (.pair key value, rest)

def readStatements : Nat → List Char → Option (List Statement)
  | 0, _ => none
  | limit + 1, text =>
    match skipAllSpace text with
    | [] => some []
    | text => do
      let (statement, rest) ← readStatement text
      let rest ← endOfLine? rest
      let statements ← readStatements limit rest
      return statement :: statements

/-- The entries so far and the path of the table that pairs are added to. -/
structure Reading where
  path : List String := []
  entries : Entries := []
deriving Inhabited

def Reading.openAt (reading : Reading) (path : List String)
    (enter : String → Entries → Option Entries) : Option Reading := do
  let change : Change := fun _ entries => enter (path.getLastD "") entries
  let entries ← edit false change path.dropLast .header reading.entries
  return { path, entries }

def Reading.add (reading : Reading) : Statement → Option Reading
  | .pair key value => do
    let change := insertDotted key.dropLast (key.getLastD "") value
    let entries ← edit false change reading.path .header reading.entries
    return { reading with entries }
  | .header path => reading.openAt path openTable
  | .itemHeader path => reading.openAt path openItem

def dropMark : List Char → List Char
  | '\ufeff' :: rest => rest
  | text => text

def read (text : String) : Option Entries := do
  let text := dropMark text.toList
  let statements ← readStatements (text.length + 1) text
  let reading ← statements.foldlM Reading.add {}
  return reading.entries

end CanonicalMarkdown.Toml
