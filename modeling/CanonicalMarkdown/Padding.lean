import CanonicalMarkdown.Kind
import CanonicalMarkdown.Unicode.WhiteSpace

namespace CanonicalMarkdown

inductive RenderError
  | misplaced (kind : Kind) (expectation : String)
  | refused (reason : String)
  /-- Two providers of the same priority have a rule for the kind. -/
  | ambiguousRegistration (kind : Kind) (priority : Int)
  | paddingUnderflow
deriving DecidableEq, Repr, Inhabited

def RenderError.message : RenderError → String
  | .misplaced kind expectation =>
    "unexpected tree structure at " ++ kind.name ++ ": " ++ expectation
  | .refused reason => "failed to write output: " ++ reason
  | .ambiguousRegistration kind priority =>
    "ambiguous rule registration for " ++ kind.name ++ " at priority " ++ toString priority
  | .paddingUnderflow => "padding stack underflow"

theorem RenderError.ok_of_toOption {α : Type} {result : Except RenderError α} {value : α}
    (some : result.toOption = .some value) : result = .ok value := by
  cases result with
  | error error => contradiction
  | ok other => exact congrArg Except.ok (Option.some.inj some)

/-- The open padding levels, innermost first. A line inside a container starts with the padding
    of every level. -/
structure Padding where
  levels : List String := []
  emitted : Nat := 0
  verbose : Bool := false
deriving DecidableEq, Repr, Inhabited

namespace Padding

def depth (padding : Padding) : Nat := padding.levels.length

def push (padding : Padding) (level : String) : Padding :=
  { padding with levels := level :: padding.levels }

def pop (padding : Padding) : Except RenderError Padding :=
  match padding.levels with
  | [] => .error .paddingUnderflow
  | _ :: levels => .ok { padding with levels }

def truncate (padding : Padding) (mark : Nat) : Padding :=
  { padding with levels := padding.levels.drop (padding.depth - mark) }

def text (padding : Padding) : String := String.join padding.levels.reverse

def counter (padding : Padding) : List String :=
  if padding.verbose then [toString padding.emitted] else []

def line (padding : Padding) : List String := padding.counter ++ padding.levels.reverse

/-- What a line that stays empty holds: the padding without the white space at its end. -/
def blankLine (padding : Padding) : List String :=
  padding.counter ++ [String.ofList (Unicode.trimEnd padding.text.toList)]

def next (padding : Padding) : Padding :=
  if padding.verbose then { padding with emitted := padding.emitted + 1 } else padding

@[simp] theorem levels_next (padding : Padding) : padding.next.levels = padding.levels := by
  unfold next; split <;> rfl

theorem depth_truncate (padding : Padding) (mark : Nat) :
    (padding.truncate mark).depth = min padding.depth mark := by
  simp only [truncate, depth, List.length_drop]
  omega

theorem truncate_depth (padding : Padding) : padding.truncate padding.depth = padding := by
  simp [truncate]

end Padding

end CanonicalMarkdown
