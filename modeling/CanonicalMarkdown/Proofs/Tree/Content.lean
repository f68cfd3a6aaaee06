import CanonicalMarkdown.Proofs.Tree.Marks
import CanonicalMarkdown.Proofs.Tree.OpenKinds
import CanonicalMarkdown.Proofs.Tree.TextPieces

namespace CanonicalMarkdown

open Text

section stream

def Container.isCode : Container → Bool
  | .indentedCode | .fencedCode _ => true
  | _ => false

def Container.isVerbatim (container : Container) : Bool :=
  container.isCode || container = .htmlBlock

namespace Markup

/-- Code blocks hold text only and HTML blocks HTML only, and what is closed was open. -/
def fitsIn (opened : List Container) : Markup → Bool
  | .close => !opened.isEmpty
  | .text _ => opened.head? ≠ some .htmlBlock
  | .html _ => !opened.head?.any Container.isCode
  | _ => !opened.head?.any Container.isVerbatim

/-- Text in a code block belongs to no run. -/
def joinsRun (opened : List Container) : Markup → Bool
  | .text _ => !opened.head?.any Container.isCode
  | _ => false

def content : Markup → List Char
  | .text written | .code written | .html written | .inlineHtml written => written.toList
  | _ => []

def leafMarks (kind : Kind) (text : String) : List Mark :=
  .enter kind :: (charMarks text.toList ++ [.leave kind])

/-- What an event adds, apart from the end of the run before it. -/
def marks (opened : List Container) : Markup → List Mark
  | .start container => [.enter container.kind]
  | .close => opened.head?.toList.map fun container => .leave container.kind
  | .text written => charMarks written.toList
  | .code written => leafMarks .codeSpan written
  | .html written =>
    if opened.head? = some .htmlBlock then charMarks written.toList else leafMarks .rawHtml written
  | .inlineHtml written => leafMarks .rawHtml written
  | .softBreak => [.lineBreak false, .textEnd]
  | .hardBreak => [.lineBreak true, .textEnd]
  | .rule => leafMarks .thematicBreak ""

def isBreak : Markup → Bool
  | .softBreak | .hardBreak => true
  | _ => false

end Markup

/-- With these containers open, innermost first, and the run of text so far ending before `reach`,
    the rest of a stream is balanced, each event fits in, and the pieces of a run follow each other
    in the source. -/
def isReadable (opened : List Container) (reach : Nat) : List Event → Bool
  | [] => opened.isEmpty
  | ⟨markup, span⟩ :: rest =>
    markup.fitsIn opened &&
      if markup.joinsRun opened then
        reach ≤ span.start && span.start < span.stop && isReadable opened span.stop rest
      else isReadable (markup.opens opened) 0 rest

theorem isReadable_cons {opened : List Container} {reach : Nat} {markup : Markup} {span : Span}
    {rest : List Event} (readable : isReadable opened reach (⟨markup, span⟩ :: rest) = true) :
    markup.fitsIn opened = true ∧
      (markup.joinsRun opened = true → reach ≤ span.start ∧ span.start < span.stop) ∧
      isReadable (markup.opens opened) (if markup.joinsRun opened then span.stop else 0) rest =
        true := by
  obtain ⟨fits, more⟩ := Bool.and_eq_true_iff.mp readable
  refine ⟨fits, ?_⟩
  cases joins : markup.joinsRun opened with
  | true =>
    have same : markup.opens opened = opened := by
      cases markup <;> first | rfl | cases joins
    simpa [joins, same, and_assoc] using more
  | false => simpa [joins] using more

def runEnd (inRun : Bool) (opened : List Container) (markup : Markup) : List Mark :=
  if inRun && !markup.joinsRun opened && !markup.isBreak then [.textEnd] else []

/-- The marks of a stream. A run of text, with the line break behind it, is one text. -/
def eventMarks (opened : List Container) (inRun : Bool) : List Event → List Mark
  | [] => if inRun then [.textEnd] else []
  | ⟨markup, _⟩ :: rest =>
    runEnd inRun opened markup ++ markup.marks opened
      ++ eventMarks (markup.opens opened) (markup.joinsRun opened) rest

end stream

theorem chars_eventMarks (opened : List Container) (inRun : Bool) (events : List Event) :
    chars (eventMarks opened inRun events) = events.flatMap (·.markup.content) := by
  induction events generalizing opened inRun with
  | nil => cases inRun <;> rfl
  | cons event rest ih =>
    obtain ⟨markup, span⟩ := event
    have silent : chars (runEnd inRun opened markup) = [] := by
      unfold runEnd
      split <;> rfl
    have leaf (kind : Kind) (text : String) : chars (Markup.leafMarks kind text) = text.toList := by
      show chars (_ ++ [_]) = _
      rw [chars_append, chars_charMarks]
      exact List.append_nil _
    have here : chars (markup.marks opened) = markup.content := by
      cases markup with
      | text text => exact chars_charMarks _
      | code | inlineHtml => exact leaf _ _
      | html html =>
        rw [Markup.marks]
        split
        · exact chars_charMarks _
        · exact leaf _ _
      | close => cases opened <;> rfl
      | rule => exact leaf _ _
      | start | softBreak | hardBreak => rfl
    rw [eventMarks, chars_append, chars_append, silent, here, ih]
    rfl

section nodes

theorem allMarks_singleton (node : Node) : allMarks [node] = node.marks := List.append_nil _

theorem marks_ofText (span : Span) (literal : String) :
    (Node.ofText span literal).marks = charMarks literal.toList ++ [.textEnd] := by
  simp [Node.ofText, Node.leaf, Node.marks, TextRun.breakMarks, allMarks]

theorem marks_ofBareUrl (span : Span) (url : String) :
    (Node.ofBareUrl span url).marks =
      .enter .autoLink :: (charMarks url.toList ++ [.textEnd, .leave .autoLink]) := by
  rw [Node.marks_of_not_text (by simp [Node.ofBareUrl, Node.kind, Payload.kind])]
  simp [Node.ofBareUrl, Node.kind, Payload.kind, Payload.content, allMarks, marks_ofText]

theorem widens_ofText (span : Span) (literal : String) :
    Widens (Node.ofText span literal).marks (charMarks literal.toList) := by
  rw [marks_ofText]
  exact (Widens.refl _).behind (by simp [Mark.isAdded])

theorem widens_ofBareUrl (span : Span) (url : String) :
    Widens (Node.ofBareUrl span url).marks (charMarks url.toList) := by
  rw [marks_ofBareUrl]
  exact .add rfl ((Widens.refl _).behind (by simp [Mark.isAdded]))

theorem Reads.widens_end {nodes : List Node} {text : List Char} (reads : Reads nodes text)
    (some : nodes ≠ []) : Widens (allMarks nodes) (charMarks text ++ [.textEnd]) := by
  induction reads with
  | nil => contradiction
  | @text span literal rest _ behind ih =>
    rw [allMarks, charMarks_append, List.append_assoc]
    by_cases last : rest = []
    · subst last
      cases behind
      simpa [allMarks, marks_ofText] using Widens.refl _
    · exact (widens_ofText span literal).append (ih last)
  | @url span literal rest _ behind ih =>
    rw [allMarks, charMarks_append, List.append_assoc]
    by_cases last : rest = []
    · subst last
      cases behind
      rw [marks_ofBareUrl]
      have address : Widens (charMarks literal.toList ++ [.textEnd, .leave .autoLink])
          (charMarks literal.toList ++ [.textEnd]) :=
        (Widens.refl _).append (.keep (.added (by simp [Mark.isAdded])))
      simpa [allMarks] using Widens.add rfl address
    · exact (widens_ofBareUrl span literal).append (ih last)

theorem marks_withBreak (span : Span) (literal : String) (hard : Bool) :
    (Node.leaf (.text (TextRun.withBreak { segment := span, literal } hard)) span).marks =
      charMarks literal.toList ++ [.lineBreak hard, .textEnd] := by
  cases hard <;> simp [Node.leaf, Node.marks, TextRun.withBreak, TextRun.breakMarks, allMarks]

theorem Reads.widens_break {nodes : List Node} {text : List Char} (reads : Reads nodes text)
    (lineBreak : LineBreak) :
    Widens (allMarks (addBreak nodes lineBreak))
      (charMarks text ++ [.lineBreak lineBreak.hard, .textEnd]) := by
  induction reads with
  | nil =>
    show Widens (allMarks [Node.leaf _ _]) _
    rw [allMarks_singleton, marks_withBreak]
    exact Widens.refl _
  | @text span literal rest _ behind ih =>
    rw [charMarks_append, List.append_assoc]
    by_cases last : rest = []
    · subst last
      cases behind
      show Widens (allMarks [Node.leaf _ _]) _
      rw [allMarks_singleton, marks_withBreak]
      exact Widens.refl _
    · rw [addBreak_cons last, allMarks]
      exact (widens_ofText span literal).append ih
  | @url span literal rest _ behind ih =>
    rw [charMarks_append, List.append_assoc]
    by_cases last : rest = []
    · subst last
      cases behind
      show Widens (allMarks [Node.ofBareUrl span literal, Node.leaf _ _]) _
      rw [allMarks, allMarks_singleton, marks_withBreak]
      exact (widens_ofBareUrl span literal).append (Widens.refl _)
    · rw [addBreak_cons last, allMarks]
      exact (widens_ofBareUrl span literal).append ih

theorem widens_paragraphAround (inlines : List Node) :
    Widens (allMarks (paragraphAround inlines)) (allMarks inlines) := by
  unfold paragraphAround
  split
  · rw [allMarks_singleton, Node.marks_of_not_text (by simp [Node.kind, Payload.kind])]
    exact .add rfl ((Widens.refl _).behind (by simp [Mark.isAdded, Node.kind, Payload.kind]))
  · rename_i none
    cases inlines with
    | nil => exact .nil
    | cons first rest =>
      exact absurd List.getLast?_cons (none first _ rfl)

theorem widens_gatherParagraphs (pending nodes : List Node) :
    Widens (allMarks (gatherParagraphs pending nodes)) (allMarks (pending ++ nodes)) := by
  fun_induction gatherParagraphs pending nodes with
  | case1 pending =>
    rw [List.append_nil]
    exact widens_paragraphAround pending
  | case2 pending child rest block ih =>
    rw [allMarks_append, allMarks_append, allMarks, allMarks]
    exact (widens_paragraphAround pending).append ((Widens.refl _).append ih)
  | case3 pending child rest inline ih => simpa using ih

theorem content_linesOf (text : String) : (linesOf text).flatMap String.toList = text.toList := by
  rw [linesOf, List.flatMap_map]
  simp only [String.toList_ofList]
  rw [List.flatMap_id', flatten_lines]

theorem detachClosure_append (lines : List String) :
    (detachClosure lines).1 ++ (detachClosure lines).2.toList = lines := by
  unfold detachClosure
  split
  · rename_i first last _ final
    dsimp only
    split
    · obtain ⟨front, rfl⟩ := List.getLast?_eq_some_iff.mp final
      rw [List.dropLast_concat]
      rfl
    · exact List.append_nil lines
  · exact List.append_nil lines

end nodes

end CanonicalMarkdown
