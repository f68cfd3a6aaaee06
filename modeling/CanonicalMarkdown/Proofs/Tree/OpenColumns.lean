import CanonicalMarkdown.Proofs.Tree.OpenKinds

namespace CanonicalMarkdown

def Source.contentColumn (source : Source) (start : Nat) : Nat :=
  let layout := source.itemStart start
  layout.column + layout.marker + layout.space

def Container.contentColumn (container : Container) (source : Source) (start : Nat) : Nat :=
  match container with
  | .item => source.contentColumn start
  | _ => 0

def Container.isPadded : Container → Bool
  | .item | .blockQuote | .definition => true
  | _ => false

def Event.opens (opened : List (Container × Nat)) (event : Event) : List (Container × Nat) :=
  match event.markup with
  | .start container => (container, event.span.start) :: opened
  | .close => opened.tail
  | _ => opened

def openedBy (events : List Event) : List (Container × Nat) := events.foldl Event.opens []

def OpenNode.frame (opened : OpenNode) : Kind × Nat := (opened.kind, opened.contentColumn)

namespace Builder

def frames (builder : Builder) : List (Kind × Nat) :=
  (builder.top :: builder.outer).map OpenNode.frame

/-- The open nodes are those of the containers with the document around them, and the content of each
    starts at the column that the source shows. -/
def OpensAt (builder : Builder) (opened : List (Container × Nat)) : Prop :=
  builder.frames = opened.map (fun (container, start) =>
    (container.kind, container.contentColumn builder.source start)) ++ [(.document, 0)]

variable {builder : Builder} {opened : List (Container × Nat)}

theorem frame_openNode (builder : Builder) (container : Container) (span : Span) :
    (builder.openNode container span).frame =
      (container.kind, container.contentColumn builder.source span.start) := by
  cases container <;> rfl

theorem frame_addText (opened : OpenNode) (span : Span) (text : String) :
    (opened.addText span text).frame = opened.frame := by
  unfold OpenNode.frame
  rw [OpenNode.kind_addText]
  unfold OpenNode.addText
  split <;> rfl

theorem frames_start (builder : Builder) (container : Container) (span : Span) :
    (builder.start container span).frames =
      (builder.openNode container span).frame :: builder.frames := by
  unfold Builder.start
  dsimp only
  split
  · obtain ⟨loose, noted⟩ := builder.top.noteParagraph_eq
    rw [noted]
    rfl
  · rfl

theorem frames_close {builder : Builder} (inside : builder.outer ≠ []) :
    builder.close.frames = builder.frames.tail := by
  obtain ⟨parent, outer, around⟩ := List.exists_cons_of_ne_nil inside
  have tail : builder.frames.tail = (parent :: outer).map OpenNode.frame := by
    rw [frames, List.map_cons, List.tail_cons, around]
  rw [tail, Builder.close, around]
  rfl

theorem frames_html (builder : Builder) (span : Span) (html : String) :
    (builder.html span html).frames = builder.frames := by
  unfold Builder.html
  split <;> rfl

theorem OpensAt.add (opens : builder.OpensAt opened) {event : Event}
    (balanced : event.markup = .close → opened ≠ []) :
    (builder.add event).OpensAt (event.opens opened) := by
  rw [OpensAt, builder.source_add event]
  obtain ⟨markup, span⟩ := event
  cases markup with
  | start container =>
    show (builder.start container span).frames = _
    rw [frames_start, frame_openNode, opens]
    rfl
  | close =>
    obtain ⟨innermost, around, rfl⟩ := List.exists_cons_of_ne_nil (balanced rfl)
    have inside : builder.outer ≠ [] := by
      intro alone
      have lengths := congrArg List.length opens
      simp [frames, alone] at lengths
    show builder.close.frames = _
    rw [frames_close inside, opens]
    rfl
  | text text =>
    show (builder.top.addText span text).frame :: builder.outer.map _ = _
    rw [frame_addText]
    exact opens
  | html html => exact (frames_html builder span html).trans opens
  | code | inlineHtml | softBreak | hardBreak | rule => exact opens

theorem OpensAt.addAll (opens : builder.OpensAt opened) {events rest : List Event}
    (nested : wellNested (opened.map Prod.fst) (events ++ rest) = true) :
    (events.foldl Builder.add builder).OpensAt (events.foldl Event.opens opened) ∧
      wellNested ((events.foldl Event.opens opened).map Prod.fst) rest = true := by
  induction events generalizing builder opened with
  | nil => exact ⟨opens, nested⟩
  | cons event events ih =>
    obtain ⟨balanced, more⟩ : (event.markup = .close → opened ≠ []) ∧
        wellNested ((event.opens opened).map Prod.fst) (events ++ rest) = true := by
      obtain ⟨markup, span⟩ := event
      cases markup with
      | start container => exact ⟨by simp, (Bool.and_eq_true_iff.mp nested).2⟩
      | close => cases opened <;> simp_all [wellNested, Event.opens]
      | _ => exact ⟨by simp, nested⟩
    exact ih (opens.add balanced) more

theorem opensAt_ofSource (source : Source) (linkify : Bool) :
    (ofSource source linkify).OpensAt [] := rfl

theorem OpensAt.containerColumn_eq (opens : builder.OpensAt opened) {container : Container}
    {start : Nat} (innermost : opened.find? (·.1.isPadded) = some (container, start)) :
    builder.containerColumn = container.contentColumn builder.source start := by
  let padded (frame : Kind × Nat) : Bool :=
    frame.1 = .listItem || frame.1 = .blockquote || frame.1 = .definitionDetails
  let frame (opened : Container × Nat) : Kind × Nat :=
    (opened.1.kind, opened.1.contentColumn builder.source opened.2)
  have paddedFrame : padded ∘ frame = fun opened => opened.1.isPadded := by
    funext ⟨container, start⟩
    cases container <;> rfl
  have found : ((builder.top :: builder.outer).find? OpenNode.isPadded).map OpenNode.frame =
      some (frame (container, start)) := by
    have stack : builder.frames.find? padded = some (frame (container, start)) := by
      rw [opens, List.find?_append]
      show ((opened.map frame).find? padded).or _ = _
      rw [List.find?_map, paddedFrame, innermost]
      rfl
    rw [← stack, frames, List.find?_map]
    rfl
  obtain ⟨around, isAround, sameFrame⟩ := Option.map_eq_some_iff.mp found
  obtain ⟨kind, column⟩ := Prod.mk.inj sameFrame
  rw [Builder.containerColumn, isAround]
  simp only [kind, column]
  cases container <;> rfl

end Builder

end CanonicalMarkdown
