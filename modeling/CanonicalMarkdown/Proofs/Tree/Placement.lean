import CanonicalMarkdown.Proofs.Placement
import CanonicalMarkdown.Tree.Builder

namespace CanonicalMarkdown

section inlineNodes

variable {parent : Kind}

theorem placed_ofText (span : Span) (literal : String) : (Node.ofText span literal).Placed :=
  Node.placed_iff.mpr .nil

theorem placed_ofBareUrl (span : Span) (url : String) : (Node.ofBareUrl span url).Placed :=
  Node.placed_iff.mpr (.singleton rfl (placed_ofText span url))

theorem placedIn_splitAtUrls (source : Source) (run : List Piece) (cursor : Nat)
    (urls : List Span) : PlacedIn parent (splitAtUrls source run cursor urls).1 := by
  fun_induction splitAtUrls source run cursor urls with
  | case1 => exact .nil
  | case2 cursor url more label before _ _ nodes last rest text ih =>
    rw [rest] at ih
    have front : PlacedIn parent text := by
      unfold text
      split
      · exact .singleton rfl (placed_ofText _ _)
      · exact .nil
    exact front.append (.cons rfl (placed_ofBareUrl url label) ih)
  | case3 _ _ _ _ ih => exact ih

theorem placedIn_runNodes (source : Source) (linkify : Bool) (run : List Piece) :
    PlacedIn parent (runNodes source linkify run) := by
  unfold runNodes
  split
  · rename_i first last _ _
    dsimp only
    generalize (if linkify then BareUrl.find source _ else []) = urls
    have nodes : PlacedIn parent (splitAtUrls source run first.span.start urls).1 :=
      placedIn_splitAtUrls source run first.span.start urls
    split
    · exact nodes.append (.singleton rfl (placed_ofText _ _))
    · exact nodes
  · exact .nil

theorem placedIn_addBreak {nodes : List Node} (placed : PlacedIn parent nodes)
    (lineBreak : LineBreak) : PlacedIn parent (addBreak nodes lineBreak) := by
  unfold addBreak
  split
  · rename_i run span attributes children last
    have front : PlacedIn parent nodes.dropLast := placed.subset (List.dropLast_subset nodes)
    have below : PlacedIn .text children :=
      Node.placed_iff.mp (placed.below _ (List.mem_of_getLast? last))
    exact front.append (.singleton rfl (Node.placed_iff.mpr below))
  · exact placed.append (.singleton rfl (Node.placed_iff.mpr .nil))

theorem placedIn_inlineNodes (source : Source) (linkify : Bool) (run : List Piece)
    (lineBreak : Option LineBreak) :
    PlacedIn parent (inlineNodes source linkify run lineBreak) := by
  have nodes : PlacedIn parent (runNodes source linkify run) := placedIn_runNodes source linkify run
  cases lineBreak with
  | none => exact nodes
  | some lineBreak => exact placedIn_addBreak nodes lineBreak

theorem PlacedIn.ofInline {other : Kind} {nodes : List Node} (placed : PlacedIn parent nodes)
    (inline : ∀ node ∈ nodes, node.kind.isBlock = false) : PlacedIn other nodes :=
  ⟨fun node member => Kind.mayStandIn_of_not_isBlock (inline node member) other, placed.below⟩

theorem placedIn_paragraphAround {inlines : List Node} (placed : PlacedIn parent inlines)
    (inline : ∀ node ∈ inlines, node.kind.isBlock = false) :
    PlacedIn parent (paragraphAround inlines) := by
  unfold paragraphAround
  split
  · exact .singleton rfl (Node.placed_iff.mpr (placed.ofInline inline))
  · exact .nil

theorem placedIn_gatherParagraphs {pending nodes : List Node} (waiting : PlacedIn parent pending)
    (inline : ∀ node ∈ pending, node.kind.isBlock = false) (placed : PlacedIn parent nodes) :
    PlacedIn parent (gatherParagraphs pending nodes) := by
  fun_induction gatherParagraphs pending nodes with
  | case1 pending => exact placedIn_paragraphAround waiting inline
  | case2 pending child rest block ih =>
    have after := ih .nil (by simp) placed.tail
    exact (placedIn_paragraphAround waiting inline).append
      (.cons placed.head.1 placed.head.2 after)
  | case3 pending child rest notBlock ih =>
    refine ih (waiting.append (.singleton placed.head.1 placed.head.2)) ?_ placed.tail
    intro node member
    rcases List.mem_append.mp member with member | member
    · exact inline node member
    · rw [List.mem_singleton.mp member]
      simpa using notBlock

end inlineNodes

namespace OpenNode

def Placed (opened : OpenNode) : Prop := PlacedIn opened.kind opened.children

theorem kind_close (opened : OpenNode) : opened.close.kind = opened.kind := by
  unfold OpenNode.close OpenNode.kind
  cases opened.payload <;> rfl

theorem placed_close {opened : OpenNode} (placed : opened.Placed) : opened.close.Placed := by
  obtain ⟨payload, span, attributes, children, run, buffer, loose, column⟩ := opened
  have below : PlacedIn payload.kind children := placed
  have gathered : PlacedIn payload.kind (gatherParagraphs [] children) :=
    placedIn_gatherParagraphs .nil (by simp) below
  rw [Node.placed_iff, kind_close]
  cases payload <;> first | exact below | exact gathered

theorem kind_addText (opened : OpenNode) (span : Span) (text : String) :
    (opened.addText span text).kind = opened.kind := by
  obtain ⟨payload, span, attributes, children, run, buffer, loose, column⟩ := opened
  cases payload <;> rfl

theorem children_addText (opened : OpenNode) (span : Span) (text : String) :
    (opened.addText span text).children = opened.children := by
  unfold OpenNode.addText
  split <;> rfl

theorem Placed.addText {opened : OpenNode} (placed : opened.Placed) (span : Span) (text : String) :
    (opened.addText span text).Placed := by
  rw [Placed, kind_addText, children_addText]
  exact placed

theorem kind_noteParagraph (opened : OpenNode) : opened.noteParagraph.kind = opened.kind := by
  unfold noteParagraph
  split <;> rfl

theorem Placed.noteParagraph {opened : OpenNode} (placed : opened.Placed) :
    opened.noteParagraph.Placed := by
  unfold OpenNode.noteParagraph
  split <;> exact placed

theorem Placed.append {opened : OpenNode} {nodes : List Node} (placed : opened.Placed)
    (more : PlacedIn opened.kind nodes) (run : List Piece) :
    { opened with run, children := opened.children ++ nodes }.Placed :=
  PlacedIn.append placed more

end OpenNode

def Container.kind : Container → Kind
  | .paragraph => .paragraph
  | .heading _ _ _ _ => .heading
  | .blockQuote => .blockquote
  | .indentedCode => .codeBlock
  | .fencedCode _ => .fencedCodeBlock
  | .htmlBlock => .htmlBlock
  | .list _ => .list
  | .item => .listItem
  | .definitionList => .definitionList
  | .definitionTitle => .definitionTerm
  | .definition => .definitionDetails
  | .table _ => .table
  | .tableHead => .tableHead
  | .tableRow => .tableRow
  | .tableCell => .tableCell
  | .emphasis | .strong => .emphasis
  | .link _ _ => .link
  | .autoLink _ | .email _ => .autoLink
  | .image _ _ => .image

def Container.mayStartIn : Container → Option Container → Bool
  | .item, some (.list _) => true
  | .item, _ => false
  | .tableHead, some (.table _) => true
  | .tableHead, _ => false
  | _, _ => true

/-- With these containers open, innermost first, the rest of a stream closes each of them and each
    that it starts, and starts items in lists only and table heads in tables only. -/
def wellNested : List Container → List Event → Bool
  | opened, [] => opened.isEmpty
  | opened, event :: rest =>
    match event.markup, opened with
    | .start container, _ =>
      container.mayStartIn opened.head? && wellNested (container :: opened) rest
    | .close, [] => false
    | .close, _ :: outer => wellNested outer rest
    | _, _ => wellNested opened rest

def kindInside (opened : List Container) : Kind := opened.head?.elim .document Container.kind

theorem Container.mayStandIn_of_mayStartIn {container : Container} {opened : List Container}
    (starts : container.mayStartIn opened.head? = true) :
    container.kind.mayStandIn (kindInside opened) = true := by
  cases opened with
  | nil => cases container <;> first | rfl | contradiction
  | cons around outer => cases container <;> cases around <;> first | rfl | contradiction

/-- The open nodes, innermost first, are those of the containers with the document around them, and
    each holds only what may stand in it. -/
inductive Stacked : List Container → OpenNode → List OpenNode → Prop
  | document {top : OpenNode} : top.kind = .document → top.Placed → Stacked [] top []
  | inside {container : Container} {opened : List Container} {top parent : OpenNode}
      {outer : List OpenNode} : top.kind = container.kind → top.Placed →
      container.kind.mayStandIn parent.kind = true → Stacked opened parent outer →
      Stacked (container :: opened) top (parent :: outer)

namespace Stacked

variable {opened : List Container} {top : OpenNode} {outer : List OpenNode}

theorem kind (stacked : Stacked opened top outer) : top.kind = kindInside opened := by
  cases stacked with
  | document kind _ => exact kind
  | inside kind _ _ _ => exact kind

theorem placed (stacked : Stacked opened top outer) : top.Placed := by
  cases stacked with
  | document _ placed => exact placed
  | inside _ placed _ _ => exact placed

theorem replace (stacked : Stacked opened top outer) {other : OpenNode}
    (kind : other.kind = top.kind) (placed : other.Placed) : Stacked opened other outer := by
  cases stacked with
  | document same _ => exact .document (kind.trans same) placed
  | inside same _ fits rest => exact .inside (kind.trans same) placed fits rest

end Stacked

namespace Builder

def Tracks (builder : Builder) (opened : List Container) : Prop :=
  Stacked opened builder.top builder.outer

variable {builder : Builder} {opened : List Container}

theorem Tracks.flush (tracks : builder.Tracks opened) (lineBreak : Option LineBreak) :
    (builder.flush lineBreak).Tracks opened :=
  Stacked.replace tracks rfl ((Stacked.placed tracks).append (placedIn_inlineNodes _ _ _ _) [])

theorem Tracks.append (tracks : builder.Tracks opened) {node : Node}
    (fits : node.kind.mayStandIn builder.top.kind = true) (placed : node.Placed) :
    (builder.append node).Tracks opened := by
  have flushed := tracks.flush none
  exact flushed.replace rfl (flushed.placed.append (.singleton fits placed) _)

theorem Tracks.push (tracks : builder.Tracks opened) {container : Container} {node : OpenNode}
    (kind : node.kind = container.kind) (empty : node.children = [])
    (fits : container.kind.mayStandIn builder.top.kind = true) :
    (builder.push node).Tracks (container :: opened) := by
  have placed : node.Placed := by
    rw [OpenNode.Placed, empty]
    exact .nil
  exact .inside kind placed fits (tracks.flush none)

theorem Tracks.close {container : Container} (tracks : builder.Tracks (container :: opened)) :
    builder.close.Tracks opened := by
  have inner : (builder.flush none).top.Placed := (tracks.flush none).placed
  obtain ⟨source, linkify, top, outer⟩ := builder
  cases tracks with
  | @inside _ _ _ parent outer kind _ fits around =>
    have placed : parent.Placed := around.placed
    have loosened (loose : Bool) :
        (Builder.mk source linkify { parent with loose } outer).Tracks opened :=
      around.replace rfl placed
    refine (loosened _).append ?_ (OpenNode.placed_close inner)
    rw [OpenNode.kind_close]
    show top.kind.mayStandIn parent.kind = true
    rw [kind]
    exact fits

theorem openNode_kind (builder : Builder) (container : Container) (span : Span) :
    (builder.openNode container span).kind = container.kind := by
  cases container <;> rfl

theorem openNode_children (builder : Builder) (container : Container) (span : Span) :
    (builder.openNode container span).children = [] := by
  cases container <;> rfl

theorem Tracks.start (tracks : builder.Tracks opened) {container : Container}
    (starts : container.mayStartIn opened.head? = true) (span : Span) :
    (builder.start container span).Tracks (container :: opened) := by
  have fits : container.kind.mayStandIn builder.top.kind = true := by
    rw [Stacked.kind tracks]
    exact Container.mayStandIn_of_mayStartIn starts
  unfold Builder.start
  dsimp only
  split
  · have noted : { builder with top := builder.top.noteParagraph }.Tracks opened :=
      Stacked.replace tracks (OpenNode.kind_noteParagraph _) (Stacked.placed tracks).noteParagraph
    refine noted.push (builder.openNode_kind container span)
      (builder.openNode_children container span) ?_
    rw [OpenNode.kind_noteParagraph]
    exact fits
  · exact tracks.push (builder.openNode_kind container span)
      (builder.openNode_children container span) fits

theorem placed_codeSpan (source : Source) (span : Span) (code : String) :
    (codeSpan source span code).Placed := by
  refine Node.placed_iff.mpr (.singleton ?_ (Node.placed_iff.mpr .nil))
  split <;> rfl

theorem placed_leaf (payload : Payload) (span : Span) : (Node.leaf payload span).Placed :=
  Node.placed_iff.mpr .nil

theorem Tracks.rawHtml (tracks : builder.Tracks opened) (span : Span) (html : String) :
    (builder.rawHtml span html).Tracks opened := tracks.append rfl (placed_leaf _ _)

theorem Tracks.add (tracks : builder.Tracks opened) {event : Event} {rest : List Event}
    (nested : wellNested opened (event :: rest) = true) :
    ∃ next, (builder.add event).Tracks next ∧ wellNested next rest = true := by
  obtain ⟨markup, span⟩ := event
  cases markup with
  | start container =>
    obtain ⟨starts, more⟩ := Bool.and_eq_true_iff.mp nested
    exact ⟨container :: opened, tracks.start starts span, more⟩
  | close =>
    cases opened with
    | nil => contradiction
    | cons container outer => exact ⟨outer, tracks.close, nested⟩
  | text text =>
    exact ⟨opened, Stacked.replace tracks (OpenNode.kind_addText _ span text)
      ((Stacked.placed tracks).addText span text), nested⟩
  | code code => exact ⟨opened, tracks.append rfl (placed_codeSpan _ span code), nested⟩
  | html html =>
    refine ⟨opened, ?_, nested⟩
    show (builder.html span html).Tracks opened
    have placed : builder.top.Placed := Stacked.placed tracks
    unfold Builder.html
    split
    · exact Stacked.replace tracks rfl placed
    · exact tracks.rawHtml span html
  | inlineHtml html => exact ⟨opened, tracks.rawHtml span html, nested⟩
  | softBreak | hardBreak => exact ⟨opened, tracks.flush _, nested⟩
  | rule => exact ⟨opened, tracks.append rfl (placed_leaf _ span), nested⟩

theorem Tracks.addAll (tracks : builder.Tracks opened) (events : List Event)
    (nested : wellNested opened events = true) : (events.foldl Builder.add builder).Tracks [] := by
  induction events generalizing builder opened with
  | nil =>
    rw [wellNested, List.isEmpty_iff] at nested
    rw [← nested]
    exact tracks
  | cons event rest ih =>
    obtain ⟨next, tracksNext, more⟩ := tracks.add nested
    exact ih tracksNext more

theorem tracks_ofSource (source : Source) (linkify : Bool) :
    (ofSource source linkify).Tracks [] := .document rfl .nil

theorem Tracks.finish (tracks : builder.Tracks []) :
    builder.finish.Placed ∧ builder.finish.kind = .document := by
  have alone : builder.outer = [] := by
    obtain ⟨source, linkify, top, outer⟩ := builder
    cases tracks
    rfl
  have flushed := tracks.flush none
  rw [Builder.finish, alone]
  show (builder.flush none).top.close.Placed ∧ (builder.flush none).top.close.kind = .document
  rw [OpenNode.kind_close]
  exact ⟨OpenNode.placed_close flushed.placed, flushed.kind⟩

end Builder

theorem Document.placed_ofEvents (source : Source) (linkify : Bool) {events : List Event}
    (nested : wellNested [] events = true) :
    (Document.ofEvents source linkify events).root.Placed ∧
      (Document.ofEvents source linkify events).root.kind = .document :=
  (Builder.Tracks.addAll (Builder.tracks_ofSource source linkify) events nested).finish

end CanonicalMarkdown
