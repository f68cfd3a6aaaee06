import CanonicalMarkdown.Event
import CanonicalMarkdown.Proofs.Tree.Placement

namespace CanonicalMarkdown

inductive Mark
  | char (c : Char)
  | lineBreak (hard : Bool)
  | textEnd
  | enter (kind : Kind)
  | leave (kind : Kind)
deriving DecidableEq

def charMarks (text : List Char) : List Mark := text.map .char

@[simp] theorem charMarks_nil : charMarks [] = [] := rfl

@[simp] theorem charMarks_append (left right : List Char) :
    charMarks (left ++ right) = charMarks left ++ charMarks right := List.map_append

def Payload.content : Payload → List Char
  | .codeBlock lines => lines.flatMap String.toList
  | .fencedCodeBlock _ lines _ => lines.flatMap String.toList
  | .htmlBlock lines closure => (lines ++ closure.toList).flatMap String.toList
  | .text run => run.literal.toList
  | .string value => value.toList
  | .rawHtml segments => segments.flatMap String.toList
  | _ => []

mutual

def Node.contents : Node → List Char
  | ⟨payload, _, _, children⟩ => payload.content ++ allContents children

def allContents : List Node → List Char
  | [] => []
  | node :: rest => node.contents ++ allContents rest

end

def TextRun.breakMarks (run : TextRun) : List Mark :=
  (if run.softBreak then [.lineBreak false] else []) ++
    if run.hardBreak then [.lineBreak true] else []

mutual

def Node.marks : Node → List Mark
  | ⟨.text run, _, _, children⟩ =>
    charMarks run.literal.toList ++ run.breakMarks ++ .textEnd :: allMarks children
  | ⟨payload, _, _, children⟩ =>
    .enter payload.kind ::
      (charMarks payload.content ++ allMarks children ++ [.leave payload.kind])

def allMarks : List Node → List Mark
  | [] => []
  | node :: rest => node.marks ++ allMarks rest

end

theorem allMarks_append (left right : List Node) :
    allMarks (left ++ right) = allMarks left ++ allMarks right := by
  induction left with
  | nil => rfl
  | cons node rest ih => simp [allMarks, ih]

theorem Node.marks_of_not_text {node : Node} (other : node.kind ≠ .text) :
    node.marks = .enter node.kind ::
      (charMarks node.payload.content ++ allMarks node.children ++ [.leave node.kind]) := by
  obtain ⟨payload, span, attributes, children⟩ := node
  cases payload <;> first | exact absurd rfl other | rfl

def Mark.char? : Mark → Option Char
  | .char c => some c
  | _ => none

def chars (marks : List Mark) : List Char := marks.filterMap Mark.char?

theorem chars_append (left right : List Mark) :
    chars (left ++ right) = chars left ++ chars right := List.filterMap_append

@[simp] theorem chars_charMarks (text : List Char) : chars (charMarks text) = text := by
  induction text with
  | nil => rfl
  | cons c rest ih => exact congrArg (c :: ·) ih

theorem TextRun.chars_breakMarks (run : TextRun) : chars run.breakMarks = [] := by
  unfold breakMarks
  split <;> split <;> rfl

mutual

theorem Node.chars_marks : ∀ node : Node, chars node.marks = node.contents
  | ⟨payload, span, attributes, children⟩ => by
    have below := chars_allMarks children
    rw [Node.contents, ← below]
    by_cases text : payload.kind = .text
    · cases payload with
      | text run =>
        simp only [Node.marks, chars_append, chars_charMarks, TextRun.chars_breakMarks,
          List.append_nil]
        rfl
      | _ => contradiction
    · have marks : Node.marks ⟨payload, span, attributes, children⟩ = .enter payload.kind ::
          (charMarks payload.content ++ allMarks children ++ [.leave payload.kind]) :=
        Node.marks_of_not_text text
      rw [marks]
      show chars (_ ++ [_]) = _
      simp only [chars_append, chars_charMarks]
      exact List.append_nil _

theorem chars_allMarks : ∀ nodes : List Node, chars (allMarks nodes) = allContents nodes
  | [] => rfl
  | node :: rest => by
    rw [allMarks, allContents, chars_append, Node.chars_marks, chars_allMarks]

end

def Mark.isAdded : Mark → Bool
  | .textEnd | .enter .string | .leave .string | .enter .paragraph | .leave .paragraph
  | .enter .autoLink | .leave .autoLink => true
  | _ => false

/-- The first list is the second with ends of texts and with begins and ends of strings, paragraphs
    and addresses put in, and with nothing else changed. -/
inductive Widens : List Mark → List Mark → Prop
  | nil : Widens [] []
  | keep {mark : Mark} {full part : List Mark} :
      Widens full part → Widens (mark :: full) (mark :: part)
  | add {mark : Mark} {full part : List Mark} :
      mark.isAdded = true → Widens full part → Widens (mark :: full) part

namespace Widens

theorem refl (marks : List Mark) : Widens marks marks := by
  induction marks with
  | nil => exact .nil
  | cons mark rest ih => exact .keep ih

theorem append {full part more rest : List Mark} (first : Widens full part)
    (second : Widens more rest) : Widens (full ++ more) (part ++ rest) := by
  induction first with
  | nil => exact second
  | keep _ ih => exact .keep ih
  | add added _ ih => exact .add added ih

theorem trans {full middle part : List Mark} (first : Widens full middle)
    (second : Widens middle part) : Widens full part := by
  induction first generalizing part with
  | nil => exact second
  | keep _ ih =>
    cases second with
    | keep rest => exact .keep (ih rest)
    | add added rest => exact .add added (ih rest)
  | add added _ ih => exact .add added (ih second)

theorem added {marks : List Mark} (all : ∀ mark ∈ marks, mark.isAdded = true) :
    Widens marks [] := by
  induction marks with
  | nil => exact .nil
  | cons mark rest ih =>
    exact .add (all mark (by simp)) (ih fun other member => all other (by simp [member]))

theorem behind {full part more : List Mark} (widens : Widens full part)
    (all : ∀ mark ∈ more, mark.isAdded = true) : Widens (full ++ more) part := by
  have both := widens.append (added all)
  rwa [List.append_nil] at both

theorem chars_eq {full part : List Mark} (widens : Widens full part) : chars full = chars part := by
  induction widens with
  | nil => rfl
  | @keep mark full part _ ih =>
    rw [chars, chars, List.filterMap_cons, List.filterMap_cons]
    split
    · exact ih
    · exact congrArg _ ih
  | @add mark full part added _ ih =>
    have silent : mark.char? = none := by
      cases mark <;> first | rfl | simp [Mark.isAdded] at added
    rw [chars, List.filterMap_cons_none silent]
    exact ih

end Widens

end CanonicalMarkdown
