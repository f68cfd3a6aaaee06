namespace CanonicalMarkdown.Toml

/-- How a table came to be, which decides what may still be added to it. -/
inductive Origin
  | header
  | implied
  | dotted
  | inline
deriving DecidableEq, Repr, Inhabited

inductive Value
  | boolean (value : Bool)
  | text (value : String)
  /-- A number or a date as it is written. -/
  | literal (written : String)
  | array (items : List Value)
  | table (origin : Origin) (entries : List (String × Value))
  /-- An array whose tables are opened by headers, the last one still open. -/
  | tables (items : List Value)
deriving Repr, Inhabited

abbrev Entries := List (String × Value)

def replace (key : String) (value : Value) : Entries → Entries
  | [] => [(key, value)]
  | entry :: rest => if entry.1 = key then (key, value) :: rest else entry :: replace key value rest

abbrev Change := Origin → Entries → Option Entries

/-- Changes the table at a path below a table, and makes the tables that are not there yet. A path
    of dotted keys does not pass through a table that has a header, and no path passes through a
    table between braces. -/
def edit (dotted : Bool) (change : Change) : List String → Change
  | [], origin, entries => change origin entries
  | key :: path, _, entries =>
    match entries.lookup key with
    | none => do
      let origin := if dotted then .dotted else .implied
      let inner ← edit dotted change path origin []
      return entries ++ [(key, .table origin inner)]
    | some (.table origin inner) => do
      if origin = .inline || (dotted && origin = .header) then none
      else
        let inner ← edit dotted change path origin inner
        return replace key (.table origin inner) entries
    | some (.tables items) => do
      match items.getLast? with
      | some (.table origin inner) =>
        let inner ← edit dotted change path origin inner
        return replace key (.tables (items.dropLast ++ [.table origin inner])) entries
      | _ => none
    | some _ => none

def insertNew (key : String) (value : Value) (entries : Entries) : Option Entries :=
  if (entries.lookup key).isSome then none else some (entries ++ [(key, value)])

/-- Adds the value of a dotted key. Only tables that dotted keys made can be added to. -/
def insertDotted (path : List String) (key : String) (value : Value) : Change :=
  edit true (fun origin entries =>
    if path.isEmpty || origin = .dotted then insertNew key value entries else none) path

def openTable (key : String) (entries : Entries) : Option Entries :=
  match entries.lookup key with
  | none => some (entries ++ [(key, .table .header [])])
  | some (.table .implied inner) => some (replace key (.table .header inner) entries)
  | some _ => none

def openItem (key : String) (entries : Entries) : Option Entries :=
  match entries.lookup key with
  | none => some (entries ++ [(key, .tables [.table .header []])])
  | some (.tables items) =>
    some (replace key (.tables (items ++ [.table .header []])) entries)
  | some _ => none

end CanonicalMarkdown.Toml
