namespace CanonicalMarkdown

/-- A named attribute; a bare name has no value. -/
structure Attribute where
  name : String
  value : Option String
deriving DecidableEq, Repr, Inhabited

/-- Attributes in the order of insertion. Names may repeat. -/
structure Attributes where
  entries : List Attribute := []
deriving DecidableEq, Repr, Inhabited

namespace Attributes

def isEmpty (attributes : Attributes) : Bool := attributes.entries.isEmpty

def size (attributes : Attributes) : Nat := attributes.entries.length

def push (attributes : Attributes) (name : String) (value : Option String) : Attributes :=
  ⟨attributes.entries ++ [⟨name, value⟩]⟩

def setIn (name value : String) : List Attribute → List Attribute
  | [] => [⟨name, some value⟩]
  | entry :: rest =>
    if entry.name = name then { entry with value := some value } :: rest
    else entry :: setIn name value rest

def set (attributes : Attributes) (name value : String) : Attributes :=
  ⟨setIn name value attributes.entries⟩

def get? (attributes : Attributes) (name : String) : Option String :=
  (attributes.entries.find? (·.name = name)).bind (·.value)

def contains (attributes : Attributes) (name : String) : Bool :=
  attributes.entries.any (·.name = name)

theorem find?_setIn (name value : String) (entries : List Attribute) :
    (setIn name value entries).find? (·.name = name) = some ⟨name, some value⟩ := by
  induction entries with
  | nil => simp [setIn]
  | cons entry rest ih => by_cases h : entry.name = name <;> simp [setIn, h, ih]

end Attributes

end CanonicalMarkdown
