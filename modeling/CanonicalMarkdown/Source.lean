import CanonicalMarkdown.Text.Utf8

namespace CanonicalMarkdown

/-- A range of byte offsets into a source, its end excluded. -/
structure Span where
  start : Nat
  stop : Nat
deriving DecidableEq, Repr, Inhabited

structure Source where
  chars : List Char
deriving DecidableEq, Repr, Inhabited

namespace Source

def ofString (text : String) : Source := ⟨text.toList⟩

def size (source : Source) : Nat := Text.byteLength source.chars

/-- The text of a span on character boundaries inside the source. -/
def slice? (source : Source) (span : Span) : Option (List Char) :=
  Text.slice? source.chars span.start span.stop

def slice (source : Source) (span : Span) : String :=
  String.ofList ((source.slice? span).getD [])

/-- What follows an offset, empty when the offset is off a character boundary. -/
def after (source : Source) (offset : Nat) : List Char :=
  (Text.dropBytes offset source.chars).getD []

def before (source : Source) (offset : Nat) : List Char :=
  (Text.takeBytes offset source.chars).getD []

def charAt? (source : Source) (offset : Nat) : Option Char := (source.after offset).head?

end Source

end CanonicalMarkdown
