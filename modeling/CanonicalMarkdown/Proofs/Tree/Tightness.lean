import Mathlib.Data.List.Chain
import Mathlib.Data.List.Forall2
import CanonicalMarkdown.Proofs.Tree.NestedEvents

namespace CanonicalMarkdown

mutual

/-- A node and the nodes below it, each before its children. -/
def Node.family : Node → List Node
  | ⟨payload, span, attributes, children⟩ =>
    ⟨payload, span, attributes, children⟩ :: families children

def families : List Node → List Node
  | [] => []
  | node :: rest => node.family ++ families rest

end

def Kind.isListPart : Kind → Bool
  | .list | .listItem | .definitionDetails => true
  | _ => false

def listParts (nodes : List Node) : List Node := (families nodes).filter (·.kind.isListPart)

section listParts

theorem families_append (nodes more : List Node) :
    families (nodes ++ more) = families nodes ++ families more := by
  induction nodes with
  | nil => rfl
  | cons node rest ih => rw [List.cons_append, families, families, ih, List.append_assoc]

theorem listParts_nil : listParts [] = [] := rfl

theorem listParts_append (nodes more : List Node) :
    listParts (nodes ++ more) = listParts nodes ++ listParts more := by
  rw [listParts, families_append, List.filter_append]
  rfl

theorem listParts_cons (node : Node) (rest : List Node) :
    listParts (node :: rest) =
      (if node.kind.isListPart then [node] else []) ++
        (listParts node.children ++ listParts rest) := by
  obtain ⟨payload, span, attributes, children⟩ := node
  rw [listParts, families, Node.family, List.cons_append, List.filter_cons, List.filter_append]
  split <;> rfl

theorem listParts_of_mem_eq_nil {nodes : List Node} (none : listParts nodes = []) {node : Node}
    (member : node ∈ nodes) : listParts node.children = [] := by
  obtain ⟨front, back, rfl⟩ := List.append_of_mem member
  rw [listParts_append, listParts_cons] at none
  simp only [List.append_eq_nil_iff] at none
  exact none.2.2.1

theorem listParts_splitAtUrls (source : Source) (run : List Piece) (cursor : Nat)
    (urls : List Span) : listParts (splitAtUrls source run cursor urls).1 = [] := by
  fun_induction splitAtUrls source run cursor urls with
  | case1 => rfl
  | case2 cursor url more label before _ _ nodes last rest text ih =>
    rw [rest] at ih
    have front : listParts text = [] := by
      unfold text
      split <;> rfl
    rw [listParts_append, front, listParts_cons, ih]
    rfl
  | case3 _ _ _ _ ih => exact ih

theorem listParts_runNodes (source : Source) (linkify : Bool) (run : List Piece) :
    listParts (runNodes source linkify run) = [] := by
  unfold runNodes
  split
  · rename_i first last _ _
    dsimp only
    generalize (if linkify then BareUrl.find source _ else []) = urls
    have nodes := listParts_splitAtUrls source run first.span.start urls
    split
    · rw [listParts_append, nodes]
      rfl
    · exact nodes
  · rfl

theorem listParts_addBreak {nodes : List Node} (none : listParts nodes = [])
    (lineBreak : LineBreak) : listParts (addBreak nodes lineBreak) = [] := by
  unfold addBreak
  split
  · rename_i run span attributes children last
    obtain ⟨front, rfl⟩ := List.getLast?_eq_some_iff.mp last
    have below : listParts children = [] :=
      listParts_of_mem_eq_nil none (List.mem_append_right front (List.mem_singleton_self _))
    rw [listParts_append] at none
    rw [List.dropLast_concat, listParts_append, (List.append_eq_nil_iff.mp none).1, listParts_cons,
      below]
    rfl
  · rw [listParts_append, none]
    rfl

theorem listParts_inlineNodes (source : Source) (linkify : Bool) (run : List Piece)
    (lineBreak : Option LineBreak) :
    listParts (inlineNodes source linkify run lineBreak) = [] := by
  have nodes := listParts_runNodes source linkify run
  cases lineBreak with
  | none => exact nodes
  | some lineBreak => exact listParts_addBreak nodes lineBreak

theorem listParts_paragraphAround (inlines : List Node) :
    listParts (paragraphAround inlines) = listParts inlines := by
  cases inlines with
  | nil => rfl
  | cons first rest =>
    rw [paragraphAround, List.head?_cons, List.getLast?_cons]
    exact (listParts_cons _ []).trans (List.append_nil _)

theorem listParts_gatherParagraphs (pending nodes : List Node) :
    listParts (gatherParagraphs pending nodes) = listParts (pending ++ nodes) := by
  fun_induction gatherParagraphs pending nodes with
  | case1 pending => rw [listParts_paragraphAround, List.append_nil]
  | case2 pending child rest block ih =>
    rw [List.nil_append] at ih
    rw [listParts_append, listParts_paragraphAround, listParts_cons, ih, listParts_append,
      listParts_cons child rest]
  | case3 pending child rest inline ih => rw [ih, List.append_assoc, List.singleton_append]

end listParts

inductive Part
  | kept (block : Node)
  | added (span : Span) (inlines : List Node)

namespace Part

def node : Part → Node
  | kept block => block
  | added span inlines => ⟨.paragraph, span, {}, inlines⟩

def contents : Part → List Node
  | kept block => [block]
  | added _ inlines => inlines

def isAdded : Part → Bool
  | kept _ => false
  | added _ _ => true

def IsProper : Part → Prop
  | kept block => block.kind.isBlock = true
  | added _ inlines => inlines ≠ [] ∧ ∀ node ∈ inlines, node.kind.isBlock = false

theorem IsProper.isBlock {part : Part} (proper : part.IsProper) :
    part.node.kind.isBlock = true := by
  cases part with
  | kept block => exact proper
  | added => rfl

end Part

/-- These children are those that were read, in the same order, but that some paragraphs were added
    around those that are no blocks: none of them is empty, and no two of them are neighbours. -/
def Wraps (children read : List Node) : Prop :=
  ∃ parts : List Part, children = parts.map Part.node ∧ read = parts.flatMap Part.contents ∧
    (∀ part ∈ parts, part.IsProper) ∧
    parts.IsChain fun left right => ¬ (left.isAdded = true ∧ right.isAdded = true)

theorem Wraps.isBlock {children read : List Node} (wraps : Wraps children read) :
    ∀ child ∈ children, child.kind.isBlock = true := by
  obtain ⟨parts, rfl, -, proper, -⟩ := wraps
  intro child member
  obtain ⟨part, among, rfl⟩ := List.mem_map.mp member
  exact (proper part among).isBlock

theorem paragraphAround_eq {inlines : List Node} (some : inlines ≠ []) :
    ∃ span, paragraphAround inlines = [(Part.added span inlines).node] := by
  rw [paragraphAround, List.head?_eq_some_head some, List.getLast?_eq_some_getLast some]
  exact ⟨_, rfl⟩

theorem wraps_gatherParagraphs {pending : List Node} (nodes : List Node)
    (inline : ∀ node ∈ pending, node.kind.isBlock = false) :
    Wraps (gatherParagraphs pending nodes) (pending ++ nodes) := by
  fun_induction gatherParagraphs pending nodes with
  | case1 pending =>
    by_cases empty : pending = []
    · subst empty
      exact ⟨[], rfl, rfl, by simp, .nil⟩
    · obtain ⟨span, around⟩ := paragraphAround_eq empty
      refine ⟨[.added span pending], around, by simp [Part.contents], ?_, .singleton _⟩
      simpa [Part.IsProper] using ⟨empty, inline⟩
  | case2 pending child rest block ih =>
    obtain ⟨parts, children, read, proper, apart⟩ := ih (by simp)
    -- the block parts the paragraph before it from one that may follow
    have behind : ∀ part ∈ Part.kept child :: parts, part.IsProper := by
      simpa [Part.IsProper, block] using proper
    have chain : (Part.kept child :: parts).IsChain
        fun left right => ¬ (left.isAdded = true ∧ right.isAdded = true) :=
      List.isChain_cons.mpr ⟨by simp [Part.isAdded], apart⟩
    rw [List.nil_append] at read
    by_cases empty : pending = []
    · subst empty
      refine ⟨.kept child :: parts, ?_, ?_, behind, chain⟩
      · simp [children, Part.node, paragraphAround]
      · simp [read, Part.contents]
    · obtain ⟨span, around⟩ := paragraphAround_eq empty
      refine ⟨.added span pending :: .kept child :: parts, ?_, ?_, ?_, ?_⟩
      · simp [around, children, Part.node]
      · simp [read, Part.contents]
      · exact List.forall_mem_cons.mpr ⟨⟨empty, inline⟩, behind⟩
      · exact List.isChain_cons.mpr ⟨by simp [Part.isAdded], chain⟩
  | case3 pending child rest other ih =>
    rw [List.append_cons pending child rest]
    refine ih ?_
    intro node member
    rcases List.mem_append.mp member with before | last
    · exact inline node before
    · rw [List.mem_singleton.mp last]
      simpa using other

namespace OpenNode

variable {opened : OpenNode}

@[simp] theorem span_close (opened : OpenNode) : opened.close.span = opened.span := by
  unfold OpenNode.close
  cases opened.payload <;> rfl

theorem close_of_list (isList : opened.kind = .list) :
    ∃ style, opened.close.payload = .list style ∧ style.tight = !opened.loose := by
  obtain ⟨payload, span, attributes, children, run, buffer, loose, column⟩ := opened
  cases payload with
  | list style => exact ⟨{ style with tight := !loose }, rfl, rfl⟩
  | _ => contradiction

theorem close_of_item (isItem : opened.kind = .listItem) :
    opened.close.children = gatherParagraphs [] opened.children := by
  obtain ⟨payload, span, attributes, children, run, buffer, loose, column⟩ := opened
  cases payload with
  | listItem offset => rfl
  | _ => contradiction

theorem close_of_details (isDetails : opened.kind = .definitionDetails) :
    opened.close.payload = .definitionDetails !opened.loose ∧
      opened.close.children = gatherParagraphs [] opened.children := by
  obtain ⟨payload, span, attributes, children, run, buffer, loose, column⟩ := opened
  cases payload with
  | definitionDetails tight => exact ⟨rfl, rfl⟩
  | _ => contradiction

theorem listParts_close (opened : OpenNode) :
    listParts opened.close.children = listParts opened.children := by
  obtain ⟨payload, span, attributes, children, run, buffer, loose, column⟩ := opened
  cases payload <;> first | rfl | exact listParts_gatherParagraphs [] children

theorem loose_noteParagraph (opened : OpenNode) :
    opened.noteParagraph.loose =
      (opened.loose || (opened.kind = .listItem || opened.kind = .definitionDetails)) := by
  unfold noteParagraph
  split
  · rename_i notes
    rw [notes, Bool.or_true]
  · rename_i silent
    rw [Bool.eq_false_iff.mpr silent, Bool.or_false]

end OpenNode

/-- Whether the events inside a container of this kind make it loose. -/
def loosened (kind : Kind) (inside : List Event) : Bool :=
  match kind with
  | .list => [.item] ∈ paragraphPlaces [] inside
  | .listItem | .definitionDetails => [] ∈ paragraphPlaces [] inside
  | _ => false

namespace Builder

def reading (source : Source) (linkify : Bool) (events : List Event) : Builder :=
  events.foldl Builder.add (.ofSource source linkify)

/-- The innermost node has grown by nodes with these list parts, and may have become loose. -/
structure Grown (before after : Builder) (loose : Bool) (parts : List Node) : Prop where
  outer : after.outer = before.outer
  kind : after.top.kind = before.top.kind
  span : after.top.span = before.top.span
  loose : after.top.loose = (before.top.loose || loose)
  parts : listParts after.top.children = listParts before.top.children ++ parts

namespace Grown

variable {before between after : Builder} {loose further : Bool} {parts more : List Node}

theorem trans (first : Grown before between loose parts)
    (second : Grown between after further more) :
    Grown before after (loose || further) (parts ++ more) where
  outer := second.outer.trans first.outer
  kind := second.kind.trans first.kind
  span := second.span.trans first.span
  loose := by rw [second.loose, first.loose, Bool.or_assoc]
  parts := by rw [second.parts, first.parts, List.append_assoc]

theorem refl (builder : Builder) : Grown builder builder false [] where
  outer := rfl
  kind := rfl
  span := rfl
  loose := (Bool.or_false _).symm
  parts := (List.append_nil _).symm

theorem flush (builder : Builder) (lineBreak : Option LineBreak) :
    Grown builder (builder.flush lineBreak) false [] where
  outer := rfl
  kind := rfl
  span := rfl
  loose := (Bool.or_false _).symm
  parts := by
    show listParts (_ ++ inlineNodes _ _ _ _) = _
    rw [listParts_append, listParts_inlineNodes]

theorem append (builder : Builder) (node : Node) :
    Grown builder (builder.append node) false (listParts [node]) where
  outer := rfl
  kind := rfl
  span := rfl
  loose := (Bool.or_false _).symm
  parts := by
    show listParts ((builder.flush none).top.children ++ [node]) = _
    rw [listParts_append, (flush builder none).parts, List.append_nil]

theorem codeSpan (builder : Builder) (span : Span) (code : String) :
    Grown builder (builder.append (codeSpan builder.source span code)) false [] := by
  have parts : listParts [Builder.codeSpan builder.source span code] = [] := by
    unfold Builder.codeSpan
    dsimp only
    split <;> rfl
  rw [← parts]
  exact append builder _

theorem html (builder : Builder) (span : Span) (html : String) :
    Grown builder (builder.html span html) false [] := by
  unfold Builder.html
  split
  · exact ⟨rfl, rfl, rfl, (Bool.or_false _).symm, (List.append_nil _).symm⟩
  · exact append builder _

theorem addText (builder : Builder) (span : Span) (text : String) :
    Grown builder { builder with top := builder.top.addText span text } false [] where
  outer := rfl
  kind := OpenNode.kind_addText _ span text
  span := by
    unfold OpenNode.addText
    split <;> rfl
  loose := by
    unfold OpenNode.addText
    split <;> exact (Bool.or_false _).symm
  parts := by
    rw [List.append_nil]
    exact congrArg listParts (OpenNode.children_addText _ span text)

theorem add (builder : Builder) {event : Event} (content : event.markup.isContent = true) :
    Grown builder (builder.add event) false [] := by
  obtain ⟨markup, span⟩ := event
  cases markup with
  | start | close => contradiction
  | text text => exact addText builder span text
  | code code => exact codeSpan builder span code
  | html html => exact Grown.html builder span html
  | softBreak | hardBreak => exact flush builder _
  | inlineHtml | rule => exact append builder _

theorem outer_start (builder : Builder) (container : Container) (span : Span) :
    ∃ parent, (builder.start container span).outer = parent :: builder.outer ∧
      parent.kind = builder.top.kind ∧ parent.span = builder.top.span ∧
      parent.loose = (builder.top.loose || (decide (container = .paragraph) &&
        (builder.top.kind = .listItem || builder.top.kind = .definitionDetails))) ∧
      listParts parent.children = listParts builder.top.children := by
  -- a paragraph is noted first, then the text in front of what is opened becomes nodes
  have flushed (around : Builder) : listParts (around.flush none).top.children =
      listParts around.top.children := by
    rw [(flush around none).parts, List.append_nil]
  unfold Builder.start
  by_cases paragraph : container = .paragraph
  · rw [if_pos paragraph]
    let noted : Builder := { builder with top := builder.top.noteParagraph }
    obtain ⟨loose, same⟩ := builder.top.noteParagraph_eq
    have span : builder.top.noteParagraph.span = builder.top.span := by rw [same]
    have children : builder.top.noteParagraph.children = builder.top.children := by rw [same]
    refine ⟨(noted.flush none).top, rfl, OpenNode.kind_noteParagraph _, span, ?_,
      (flushed noted).trans (congrArg listParts children)⟩
    rw [decide_eq_true paragraph, Bool.true_and]
    exact builder.top.loose_noteParagraph
  · rw [if_neg paragraph]
    refine ⟨(builder.flush none).top, rfl, rfl, rfl, ?_, flushed builder⟩
    rw [decide_eq_false paragraph, Bool.false_and, Bool.or_false]
    rfl

theorem top_of_start {builder : Builder} {container : Container} {span : Span}
    (inner : Grown (builder.start container span) after loose parts) :
    after.top.kind = container.kind ∧ after.top.span = span ∧ after.top.loose = loose ∧
      listParts after.top.children = parts := by
  obtain ⟨-, kind, place, noted, children⟩ := inner
  rw [top_start] at kind place noted children
  refine ⟨kind.trans (builder.openNode_kind container span), ?_, ?_, ?_⟩
  · rw [place]
    cases container <;> rfl
  · rw [noted]
    cases container <;> rfl
  · rw [children, openNode_children]
    rfl

theorem container (before : Builder) {container : Container} {first : Span}
    (inner : Grown (before.start container first) between loose parts) :
    Grown before between.close
      ((decide (container = .paragraph) &&
          (before.top.kind = .listItem || before.top.kind = .definitionDetails))
        || (decide (container = .item) && loose))
      (listParts [(between.flush none).top.close]) := by
  obtain ⟨parent, around, kind, span, noted, parts⟩ := outer_start before container first
  have outer : between.outer = parent :: before.outer := inner.outer.trans around
  obtain ⟨ownKind, -, ownLoose, -⟩ := inner.top_of_start
  have isItem : decide (between.top.kind = .listItem) = decide (container = .item) := by
    rw [ownKind]
    cases container <;> rfl
  rw [Builder.close, outer]
  let loosened : OpenNode := { parent with
    loose := parent.loose || (decide (between.top.kind = .listItem) && between.top.loose) }
  have appended := append { between with top := loosened, outer := before.outer }
    (between.flush none).top.close
  exact {
    outer := rfl
    kind
    span
    loose := by
      show (parent.loose || (decide (between.top.kind = .listItem) && between.top.loose)) = _
      rw [isItem, ownLoose, noted, Bool.or_assoc]
    parts := appended.parts.trans (congrArg (· ++ _) parts) }

end Grown

theorem reading_concat (source : Source) (linkify : Bool) (events : List Event) (event : Event) :
    reading source linkify (events ++ [event]) = (reading source linkify events).add event :=
  List.foldl_concat ..

end Builder

def Enclosure.read (source : Source) (linkify : Bool) (enclosure : Enclosure) : List Node :=
  ((Builder.reading source linkify (enclosure.front ++ enclosure.inside)).flush none).top.children

/-- The node that a list, an item or a details block of a stream becomes. A list is tight unless a
    paragraph starts directly inside one of its own items, a details block unless one starts
    directly inside it; items and details blocks hold nothing but blocks. -/
def Enclosure.Becomes (source : Source) (linkify : Bool) (enclosure : Enclosure) (node : Node) :
    Prop :=
  node.span = enclosure.span ∧
  match enclosure.container with
  | .list _ => ∃ style, node.payload = .list style ∧
      (style.tight = true ↔ [.item] ∉ paragraphPlaces [] enclosure.inside)
  | .item => node.kind = .listItem ∧
      (∀ child ∈ node.children, child.kind.isBlock = true) ∧
      Wraps node.children (enclosure.read source linkify)
  | .definition => ∃ tight, node.payload = .definitionDetails tight ∧
      (tight = true ↔ [] ∉ paragraphPlaces [] enclosure.inside) ∧
      (∀ child ∈ node.children, child.kind.isBlock = true) ∧
      Wraps node.children (enclosure.read source linkify)
  | _ => False

theorem Enclosure.becomes_close {source : Source} {linkify : Bool} {enclosure : Enclosure}
    {opened : OpenNode} (span : opened.span = enclosure.span)
    (kind : opened.kind = enclosure.container.kind)
    (loose : opened.loose = loosened enclosure.container.kind enclosure.inside)
    (read : opened.children = enclosure.read source linkify)
    (isPart : enclosure.container.kind.isListPart = true) :
    enclosure.Becomes source linkify opened.close := by
  have wraps : Wraps (gatherParagraphs [] opened.children) (enclosure.read source linkify) := by
    rw [← read]
    exact wraps_gatherParagraphs opened.children (by simp)
  refine ⟨(opened.span_close).trans span, ?_⟩
  obtain ⟨front, container, first, inside⟩ := enclosure
  cases container with
  | list start =>
    obtain ⟨style, payload, tight⟩ := OpenNode.close_of_list kind
    refine ⟨style, payload, ?_⟩
    simp [tight, loose, loosened, Container.kind]
  | item =>
    refine ⟨(OpenNode.kind_close _).trans kind, ?_⟩
    rw [OpenNode.close_of_item kind]
    exact ⟨wraps.isBlock, wraps⟩
  | definition =>
    obtain ⟨payload, children⟩ := OpenNode.close_of_details kind
    refine ⟨_, payload, ?_, ?_⟩
    · simp [loose, loosened, Container.kind]
    · rw [children]
      exact ⟨wraps.isBlock, wraps⟩
  | _ => contradiction

theorem Enclosure.forall₂_becomes {source : Source} {linkify : Bool} {enclosure : Enclosure}
    {before : Builder} {parts : List Node} {below : List Enclosure}
    (inner : Builder.Grown (before.start enclosure.container enclosure.span)
      (.reading source linkify (enclosure.front ++ enclosure.inside))
      (loosened enclosure.container.kind enclosure.inside) parts)
    (become : List.Forall₂ (Enclosure.Becomes source linkify)
      (below.filter (·.container.kind.isListPart)) parts) :
    List.Forall₂ (Enclosure.Becomes source linkify)
      ((enclosure :: below).filter (·.container.kind.isListPart))
      (listParts [((Builder.reading source linkify
        (enclosure.front ++ enclosure.inside)).flush none).top.close]) := by
  have flushed := inner.trans (.flush _ none)
  rw [Bool.or_false, List.append_nil] at flushed
  obtain ⟨kind, span, loose, children⟩ := flushed.top_of_start
  rw [listParts_cons, OpenNode.listParts_close, children, OpenNode.kind_close, kind,
    listParts_nil, List.append_nil, List.filter_cons]
  by_cases isPart : enclosure.container.kind.isListPart = true
  · rw [if_pos isPart, if_pos isPart]
    exact .cons (becomes_close span kind loose rfl isPart) become
  · rw [if_neg isPart, if_neg isPart]
    exact become

theorem loosened_content {event : Event} (content : event.markup.isContent = true) (kind : Kind)
    (rest : List Event) : loosened kind (event :: rest) = loosened kind rest := by
  unfold loosened
  rw [paragraphPlaces_content content]

theorem loosened_container {kind : Kind} {container : Container} {first last : Span}
    {inside rest : List Event} (nested : Nested container.kind inside)
    (fits : container = .item → kind = .list) :
    loosened kind (⟨.start container, first⟩ :: (inside ++ ⟨.close, last⟩ :: rest)) =
      (((decide (container = .paragraph) && (kind = .listItem || kind = .definitionDetails))
        || (decide (container = .item) && loosened container.kind inside))
        || loosened kind rest) := by
  cases kind with
  | list =>
    simp only [loosened, nested.item_mem_paragraphPlaces]
    by_cases item : container = .item <;> simp [item, Container.kind]
  | listItem | definitionDetails =>
    have notItem : container ≠ .item := fun item => by simpa using fits item
    simp [loosened, nested.nil_mem_paragraphPlaces, notItem]
  | _ =>
    have notItem : container ≠ .item := fun item => by simpa using fits item
    simp [loosened, notItem]

variable {source : Source} {linkify : Bool} {around : Kind} {inner : List Event}

/-- Nested events add to the innermost node a tree for each of their lists, items and details
    blocks. By induction on the nesting: what a container becomes is known when it closes. -/
theorem Nested.grown (nested : Nested around inner) (front : List Event)
    (kind : (Builder.reading source linkify front).top.kind = around) :
    ∃ parts, Builder.Grown (.reading source linkify front)
        (.reading source linkify (front ++ inner)) (loosened around inner) parts ∧
      List.Forall₂ (Enclosure.Becomes source linkify)
        ((enclosures front inner).filter (·.container.kind.isListPart)) parts := by
  induction nested generalizing front with
  | @nil around =>
    have silent : loosened around [] = false := by
      unfold loosened
      split <;> rfl
    rw [List.append_nil, silent]
    exact ⟨[], .refl _, .nil⟩
  | @content around event rest content _ ih =>
    have step : Builder.Grown (.reading source linkify front)
        (.reading source linkify (front ++ [event])) false [] := by
      rw [Builder.reading_concat]
      exact .add _ content
    obtain ⟨parts, grown, become⟩ := ih (front ++ [event]) (step.kind.trans kind)
    refine ⟨parts, ?_, ?_⟩
    · rw [loosened_content content, List.append_cons]
      simpa using step.trans grown
    · rwa [enclosures_content content]
  | @container around container first last inside rest fits nested _ below behind =>
    have start : Builder.reading source linkify (front ++ [⟨.start container, first⟩]) =
        (Builder.reading source linkify front).start container first :=
      Builder.reading_concat ..
    obtain ⟨parts, inner, become⟩ := below (front ++ [⟨.start container, first⟩]) (by
      rw [start, Builder.top_start]
      exact Builder.openNode_kind ..)
    rw [start] at inner
    -- the flag of an item reaches its list here, before the rest of the list is read
    have close : Builder.reading source linkify
        (front ++ ⟨.start container, first⟩ :: (inside ++ [⟨.close, last⟩])) =
          (Builder.reading source linkify
            (front ++ [⟨.start container, first⟩] ++ inside)).close := by
      rw [List.append_cons, ← List.append_assoc, Builder.reading_concat]
      rfl
    have whole := Builder.Grown.container _ inner
    rw [← close] at whole
    obtain ⟨later, after, becomeLater⟩ :=
      behind (front ++ ⟨.start container, first⟩ :: (inside ++ [⟨.close, last⟩]))
        (whole.kind.trans kind)
    have grown := whole.trans after
    rw [kind, ← loosened_container nested fits, List.append_assoc, List.cons_append,
      List.append_assoc, List.singleton_append] at grown
    refine ⟨_, grown, ?_⟩
    rw [nested.enclosures_container, ← List.cons_append, List.filter_append]
    exact List.rel_append (Enclosure.forall₂_becomes inner become) becomeLater

/-- The lists, items and details blocks of a document are those of the stream, in the same order:
    each of them is as tight as the paragraphs inside tell, and holds what was read inside, with
    paragraphs around all that is no block. -/
theorem Document.becomes_ofEvents (source : Source) (linkify : Bool) {events : List Event}
    (closes : itemsInLists [] events = true) :
    List.Forall₂ (Enclosure.Becomes source linkify)
      ((enclosures [] events).filter (·.container.kind.isListPart))
      ((Document.ofEvents source linkify events).root.family.filter (·.kind.isListPart)) := by
  obtain ⟨parts, grown, become⟩ :=
    (nested_of_closed closes).grown [] (rfl : (Builder.reading source linkify []).top.kind = _)
  rw [List.nil_append] at grown
  generalize reached : Builder.reading source linkify events = builder at grown
  have flushed := grown.trans (.flush builder none)
  have root : (Document.ofEvents source linkify events).root = (builder.flush none).top.close := by
    show (Builder.reading source linkify events).finish = _
    have alone : builder.outer = [] := grown.outer
    rw [reached, Builder.finish, alone]
    rfl
  have document : (builder.flush none).top.kind = .document := flushed.kind
  have family (node : Node) : node.family.filter (·.kind.isListPart) = listParts [node] := by
    rw [listParts, families, families, List.append_nil]
  rw [family, root, listParts_cons, OpenNode.listParts_close, OpenNode.kind_close, document,
    flushed.parts, List.append_nil parts, listParts_nil, List.append_nil]
  exact become

def nestedLists : List Event :=
  [⟨.start (.list none), ⟨0, 23⟩⟩, ⟨.start .item, ⟨0, 23⟩⟩, ⟨.text "a", ⟨2, 3⟩⟩,
    ⟨.start .blockQuote, ⟨6, 10⟩⟩, ⟨.start .paragraph, ⟨8, 10⟩⟩, ⟨.text "b", ⟨8, 9⟩⟩,
    ⟨.close, ⟨8, 10⟩⟩, ⟨.close, ⟨6, 10⟩⟩,
    ⟨.start (.list none), ⟨12, 23⟩⟩, ⟨.start .item, ⟨12, 17⟩⟩, ⟨.start .paragraph, ⟨14, 16⟩⟩,
    ⟨.text "c", ⟨14, 15⟩⟩, ⟨.close, ⟨14, 16⟩⟩, ⟨.close, ⟨12, 17⟩⟩, ⟨.start .item, ⟨19, 23⟩⟩,
    ⟨.start .paragraph, ⟨21, 23⟩⟩, ⟨.text "d", ⟨21, 22⟩⟩, ⟨.close, ⟨21, 23⟩⟩,
    ⟨.close, ⟨19, 23⟩⟩, ⟨.close, ⟨12, 23⟩⟩, ⟨.close, ⟨0, 23⟩⟩, ⟨.close, ⟨0, 23⟩⟩]

theorem becomes_nestedLists :
    let source := Source.ofString "- a\n  > b\n  - c\n\n  - d\n"
    let document := Document.ofEvents source true nestedLists
    itemsInLists [] nestedLists = true ∧
      (document.root.family.filter (·.kind.isListPart)).map (·.payload) =
        [.list ⟨none, '-', true, false⟩, .listItem 2, .list ⟨none, '-', false, false⟩,
          .listItem 2, .listItem 2] ∧
      List.Forall₂ (Enclosure.Becomes source true)
        ((enclosures [] nestedLists).filter (·.container.kind.isListPart))
        (document.root.family.filter (·.kind.isListPart)) :=
  ⟨by decide, by decide +kernel, Document.becomes_ofEvents _ _ (by decide)⟩

end CanonicalMarkdown
