namespace CanonicalMarkdown

inductive FileEntry
  | file (bytes : List UInt8)
  | directory
deriving DecidableEq, Repr, Inhabited

inductive FileError
  | notFound
  | isDirectory
  | notDirectory
  | nameTooLong
  | notText
deriving DecidableEq, Repr, Inhabited

def FileError.message : FileError → String
  | .notFound => "No such file or directory (os error 2)"
  | .isDirectory => "Is a directory (os error 21)"
  | .notDirectory => "Not a directory (os error 20)"
  | .nameTooLong => "File name too long (os error 36)"
  | .notText => "stream did not contain valid UTF-8"

/-- A place in the file system: names from the innermost one to the one below the root. -/
abbrev Location := List String

structure FileSystem where
  entries : List (Location × FileEntry) := []
deriving DecidableEq, Repr, Inhabited

namespace FileSystem

def find? (files : FileSystem) (location : Location) : Option FileEntry :=
  if location = [] then some .directory else files.entries.lookup location

def isFile (files : FileSystem) (location : Location) : Bool :=
  match files.find? location with
  | some (.file _) => true
  | _ => false

def put (files : FileSystem) (location : Location) (entry : FileEntry) : FileSystem :=
  { files with
    entries := (location, entry) :: files.entries.filter fun other => other.1 ≠ location }

def plant (files : FileSystem) (entry : FileEntry) : Location → FileSystem
  | [] => files
  | name :: parent =>
    let planted := files.plant .directory parent
    if entry = .directory ∧ (planted.find? (name :: parent)).isSome then planted
    else planted.put (name :: parent) entry

def absolutePath (location : Location) : String :=
  String.join (location.reverse.map ("/" ++ ·))

def longestName : Nat := 255

def longestPath : Nat := 4095

def enter (files : FileSystem) (location : Location) : Except FileError Location :=
  match files.find? location with
  | none => .error .notFound
  | some (.file _) => .error .notDirectory
  | some .directory => .ok location

def step (directory : Location) (name : String) : Except FileError Location :=
  if name = "" ∨ name = "." then .ok directory
  else if name = ".." then .ok directory.tail
  else if longestName < name.utf8ByteSize then .error .nameTooLong
  else .ok (name :: directory)

def follow (files : FileSystem) (location : Location) : List String → Except FileError Location
  | [] => .ok location
  | name :: rest => do
    let directory ← files.enter location
    files.follow (← step directory name) rest

def route (directory : Location) (path : String) : Except FileError (Location × List String) :=
  if path.isEmpty then .error .notFound
  else if longestPath < path.utf8ByteSize then .error .nameTooLong
  else .ok (if path.toList.head? = some '/' then [] else directory, path.splitOn "/")

/-- The location of a path that is seen from a directory. A slash at its end is followed by an
    empty name, and so asks for a directory. -/
def locate (files : FileSystem) (directory : Location) (path : String) :
    Except FileError Location := do
  let (start, names) ← route directory path
  files.follow start names

def existing (files : FileSystem) (directory : Location) (path : String) :
    Except FileError (Location × FileEntry) :=
  match files.locate directory path with
  | .error error => .error error
  | .ok location =>
    match files.find? location with
    | some entry => .ok (location, entry)
    | none => .error .notFound

def exists? (files : FileSystem) (directory : Location) (path : String) : Bool :=
  (files.existing directory path).toOption.isSome

def textOf (bytes : List UInt8) : Except FileError String :=
  match String.fromUTF8? ⟨bytes.toArray⟩ with
  | some text => .ok text
  | none => .error .notText

def readText (files : FileSystem) (directory : Location) (path : String) :
    Except FileError String :=
  match files.existing directory path with
  | .error error => .error error
  | .ok (_, .directory) => .error .isDirectory
  | .ok (_, .file bytes) => textOf bytes

/-- Makes an empty file of the one that is there, or a new one in a directory that is there. A
    path that has no names, or whose last name is `.` or `..` or has a slash behind it, means a
    directory. -/
def create (files : FileSystem) (directory : Location) (path : String) :
    Except FileError (Location × FileSystem) := do
  let (start, names) ← route directory path
  let steps := names.filter (· ≠ "")
  let parent ← files.enter (← files.follow start steps.dropLast)
  let name := steps.getLastD "."
  if names.getLast? = some "" ∨ name = "." ∨ name = ".." then .error .isDirectory
  else
    let location ← step parent name
    match files.find? location with
    | some .directory => .error .isDirectory
    | _ => .ok (location, files.put location (.file []))

theorem find?_put_self (files : FileSystem) {location : Location} (entry : FileEntry)
    (below : location ≠ []) : (files.put location entry).find? location = some entry := by
  simp [find?, put, below]

theorem lookup_filter_ne {location other : Location} (different : other ≠ location)
    (entries : List (Location × FileEntry)) :
    (entries.filter fun kept => kept.1 ≠ location).lookup other = entries.lookup other := by
  induction entries with
  | nil => rfl
  | cons first rest ih =>
    obtain ⟨place, entry⟩ := first
    by_cases removed : place = location
    · subst removed
      have unequal : (other == place) = false := by simpa using different
      simpa [List.lookup_cons, unequal] using ih
    · cases same : other == place <;> simp_all [List.lookup_cons]

theorem find?_put_of_ne (files : FileSystem) {location other : Location} (entry : FileEntry)
    (different : other ≠ location) :
    (files.put location entry).find? other = files.find? other := by
  have unequal : (other == location) = false := by simpa using different
  simp only [find?, put, List.lookup_cons, unequal, lookup_filter_ne different]

end FileSystem

end CanonicalMarkdown
