import CanonicalMarkdown.Proofs.Tree.Placement

namespace CanonicalMarkdown

theorem OpenNode.noteParagraph_eq (opened : OpenNode) :
    ∃ loose, opened.noteParagraph = { opened with loose } := by
  unfold noteParagraph
  split
  · exact ⟨true, rfl⟩
  · exact ⟨opened.loose, rfl⟩

def Markup.opens (opened : List Container) : Markup → List Container
  | .start container => container :: opened
  | .close => opened.tail
  | _ => opened

namespace Builder

/-- The open nodes, innermost first, are those of the containers with the document around them. -/
def Opens (builder : Builder) (opened : List Container) : Prop :=
  (builder.top :: builder.outer).map OpenNode.kind = opened.map Container.kind ++ [.document]

variable {builder : Builder} {opened : List Container}

theorem source_add (builder : Builder) (event : Event) :
    (builder.add event).source = builder.source := by
  obtain ⟨markup, span⟩ := event
  cases markup with
  | start container =>
    show (builder.start container span).source = _
    unfold Builder.start
    dsimp only
    split <;> rfl
  | close =>
    show builder.close.source = _
    unfold Builder.close
    split <;> rfl
  | html html =>
    show (builder.html span html).source = _
    unfold Builder.html
    split <;> rfl
  | _ => rfl

theorem source_addAll (builder : Builder) (events : List Event) :
    (events.foldl Builder.add builder).source = builder.source := by
  induction events generalizing builder with
  | nil => rfl
  | cons event rest ih => exact (ih _).trans (builder.source_add event)

theorem top_start (builder : Builder) (container : Container) (span : Span) :
    (builder.start container span).top = builder.openNode container span := by
  unfold Builder.start
  dsimp only
  split <;> rfl

theorem outer_close (builder : Builder) : builder.close.outer = builder.outer.tail := by
  unfold Builder.close
  split
  · rename_i none
    rw [none]
    rfl
  · rename_i parent outer around
    rw [around]
    rfl

namespace Opens

theorem kind (opens : builder.Opens opened) : builder.top.kind = kindInside opened := by
  cases opened <;> exact (List.cons.inj opens).1

theorem outer_eq_nil (opens : builder.Opens []) : builder.outer = [] := by
  simpa using (List.cons.inj opens).2

theorem outer_ne_nil {container : Container} (opens : builder.Opens (container :: opened)) :
    ∃ parent outer, builder.outer = parent :: outer := by
  cases outer : builder.outer with
  | nil => cases opened <;> simp [Opens, outer] at opens
  | cons parent rest => exact ⟨parent, rest, rfl⟩

theorem replace (opens : builder.Opens opened) {top : OpenNode} (kind : top.kind = builder.top.kind) :
    { builder with top }.Opens opened := by
  rw [Opens, List.map_cons, kind]
  exact opens

theorem start (opens : builder.Opens opened) (container : Container) (span : Span) :
    (builder.start container span).Opens (container :: opened) := by
  have pushed {around : Builder} (opens : around.Opens opened) :
      (around.push (builder.openNode container span)).Opens (container :: opened) := by
    show (builder.openNode container span).kind :: _ = _
    rw [builder.openNode_kind]
    exact congrArg _ opens
  unfold Builder.start
  dsimp only
  split
  · exact pushed (opens.replace (OpenNode.kind_noteParagraph _))
  · exact pushed opens

theorem close {container : Container} (opens : builder.Opens (container :: opened)) :
    builder.close.Opens opened := by
  obtain ⟨parent, outer, around⟩ := opens.outer_ne_nil
  have kinds := (List.cons.inj opens).2
  rw [around] at kinds
  rw [Builder.close, around]
  exact kinds

theorem html (opens : builder.Opens opened) (span : Span) (html : String) :
    (builder.html span html).Opens opened := by
  unfold Builder.html
  split <;> exact opens

theorem add (opens : builder.Opens opened) {markup : Markup} {span : Span}
    (balanced : markup = .close → opened ≠ []) :
    (builder.add ⟨markup, span⟩).Opens (markup.opens opened) := by
  cases markup with
  | start container => exact opens.start container span
  | close =>
    obtain ⟨container, outer, rfl⟩ := List.exists_cons_of_ne_nil (balanced rfl)
    exact opens.close
  | text text => exact opens.replace (OpenNode.kind_addText _ span text)
  | html html => exact opens.html span html
  | code | inlineHtml | softBreak | hardBreak | rule => exact opens

end Opens

theorem opens_ofSource (source : Source) (linkify : Bool) : (ofSource source linkify).Opens [] := rfl

end Builder

end CanonicalMarkdown
