import CanonicalMarkdown.Proofs.Tree.OpenKinds
import CanonicalMarkdown.Proofs.WalkOrder

namespace CanonicalMarkdown

inductive Node.HoldsItem (offset : Nat) (span : Span) : Node → Prop
  | here {node : Node} : node.payload = .listItem offset → node.span = span →
      node.HoldsItem offset span
  | inside {node child : Node} : child ∈ node.children → child.HoldsItem offset span →
      node.HoldsItem offset span

variable {offset : Nat} {span : Span}

theorem Document.Holds.exists_item {document : Document} {node : Node}
    (item : node.HoldsItem offset span) : ∀ {view : View}, document.Holds view → view.node = node →
      ∃ inner, document.Holds inner ∧ inner.node.payload = .listItem offset ∧
        inner.node.span = span := by
  induction item with
  | here payload place =>
    rintro view holds rfl
    exact ⟨view, holds, payload, place⟩
  | @inside node child member _ ih =>
    rintro view holds rfl
    obtain ⟨earlier, later, children⟩ := List.append_of_mem member
    have split : view.node.children = earlier.reverse.reverse ++ child :: later := by
      rwa [List.reverse_reverse]
    exact ih (.child holds split) rfl

def holdItem (offset : Nat) (span : Span) (nodes : List Node) : Prop :=
  ∃ node ∈ nodes, node.HoldsItem offset span

theorem holdItem_append {nodes more : List Node} :
    holdItem offset span (nodes ++ more) ↔ holdItem offset span nodes ∨ holdItem offset span more := by
  simp only [holdItem, List.mem_append, or_and_right, exists_or]

theorem holdItem_cons {node : Node} {nodes : List Node} :
    holdItem offset span (node :: nodes) ↔
      node.HoldsItem offset span ∨ holdItem offset span nodes := by
  simp [holdItem]

theorem holdItem_paragraphAround {inlines : List Node} (item : holdItem offset span inlines) :
    holdItem offset span (paragraphAround inlines) := by
  obtain ⟨node, member, holds⟩ := item
  have some : inlines ≠ [] := List.ne_nil_of_mem member
  rw [paragraphAround, List.head?_eq_some_head some, List.getLast?_eq_some_getLast some]
  exact ⟨_, List.mem_singleton_self _, .inside member holds⟩

theorem holdItem_gatherParagraphs {pending nodes : List Node}
    (item : holdItem offset span (pending ++ nodes)) :
    holdItem offset span (gatherParagraphs pending nodes) := by
  fun_induction gatherParagraphs pending nodes with
  | case1 pending =>
    rw [List.append_nil] at item
    exact holdItem_paragraphAround item
  | case2 pending child rest block ih =>
    rw [holdItem_append, holdItem_cons] at item ⊢
    rcases item with waiting | here | later
    · exact .inl (holdItem_paragraphAround waiting)
    · exact .inr (.inl here)
    · exact .inr (.inr (ih later))
  | case3 pending child rest inline ih =>
    refine ih ?_
    rwa [List.append_assoc, List.singleton_append]

namespace OpenNode

def Keeps (offset : Nat) (span : Span) (opened : OpenNode) : Prop :=
  (opened.payload = .listItem offset ∧ opened.span = span) ∨ holdItem offset span opened.children

variable {opened : OpenNode}

theorem holdsItem_close (keeps : opened.Keeps offset span) :
    opened.close.HoldsItem offset span := by
  obtain ⟨payload, place, attributes, children, run, buffer, loose, column⟩ := opened
  rcases keeps with ⟨rfl, rfl⟩ | held
  · exact .here rfl rfl
  · have gathered : holdItem offset span (gatherParagraphs [] children) :=
      holdItem_gatherParagraphs held
    obtain ⟨node, member, holds⟩ := held
    obtain ⟨around, among, holdsAround⟩ := gathered
    cases payload <;> first | exact .inside member holds | exact .inside among holdsAround

theorem Keeps.append (keeps : opened.Keeps offset span) (run : List Piece) (nodes : List Node) :
    { opened with run, children := opened.children ++ nodes }.Keeps offset span :=
  keeps.imp_right fun held => holdItem_append.mpr (.inl held)

theorem Keeps.addText (keeps : opened.Keeps offset span) (place : Span) (text : String) :
    (opened.addText place text).Keeps offset span := by
  rcases keeps with ⟨item, same⟩ | held
  · obtain ⟨payload, around, attributes, children, run, buffer, loose, column⟩ := opened
    cases item
    exact .inl ⟨rfl, same⟩
  · refine .inr ?_
    rwa [children_addText]

theorem Keeps.noteParagraph (keeps : opened.Keeps offset span) :
    opened.noteParagraph.Keeps offset span := by
  unfold OpenNode.noteParagraph
  split <;> exact keeps

end OpenNode

namespace Builder

def Keeps (offset : Nat) (span : Span) (builder : Builder) : Prop :=
  builder.top.Keeps offset span ∨ ∃ opened ∈ builder.outer, opened.Keeps offset span

variable {builder : Builder}

namespace Keeps

theorem replace (keeps : builder.Keeps offset span) {top : OpenNode}
    (kept : builder.top.Keeps offset span → top.Keeps offset span) :
    { builder with top }.Keeps offset span := keeps.imp_left kept

theorem flush (keeps : builder.Keeps offset span) (lineBreak : Option LineBreak) :
    (builder.flush lineBreak).Keeps offset span := keeps.replace fun kept => kept.append _ _

theorem append (keeps : builder.Keeps offset span) (node : Node) :
    (builder.append node).Keeps offset span :=
  (keeps.flush none).replace fun kept => kept.append _ _

theorem push (keeps : builder.Keeps offset span) (opened : OpenNode) :
    (builder.push opened).Keeps offset span := by
  rcases keeps.flush none with kept | ⟨around, member, kept⟩
  · exact .inr ⟨_, List.mem_cons_self, kept⟩
  · exact .inr ⟨around, List.mem_cons_of_mem _ member, kept⟩

theorem close (keeps : builder.Keeps offset span) : builder.close.Keeps offset span := by
  unfold Builder.close
  split
  · exact keeps
  · rename_i parent outer around
    rcases keeps.flush none with kept | ⟨opened, member, kept⟩
    · exact .inl (.inr (holdItem_append.mpr
        (.inr ⟨_, List.mem_singleton_self _, OpenNode.holdsItem_close kept⟩)))
    · rw [show (builder.flush none).outer = parent :: outer from around] at member
      refine append ?_ _
      rcases List.mem_cons.mp member with rfl | further
      · exact .inl kept
      · exact .inr ⟨opened, further, kept⟩

theorem add (keeps : builder.Keeps offset span) (event : Event) :
    (builder.add event).Keeps offset span := by
  obtain ⟨markup, place⟩ := event
  cases markup with
  | start container =>
    show (builder.start container place).Keeps offset span
    unfold Builder.start
    dsimp only
    split
    · exact (keeps.replace OpenNode.Keeps.noteParagraph).push _
    · exact keeps.push _
  | close => exact keeps.close
  | text text => exact keeps.replace fun kept => kept.addText place text
  | html html =>
    show (builder.html place html).Keeps offset span
    unfold Builder.html
    split
    · exact keeps.replace fun kept => kept
    · exact keeps.append _
  | softBreak | hardBreak => exact keeps.flush _
  | code | inlineHtml | rule => exact keeps.append _

theorem addAll (keeps : builder.Keeps offset span) (events : List Event) :
    (events.foldl Builder.add builder).Keeps offset span := by
  induction events generalizing builder with
  | nil => exact keeps
  | cons event rest ih => exact ih (keeps.add event)

theorem closeOuter (keeps : builder.Keeps offset span) (count : Nat) :
    (builder.closeOuter count).Keeps offset span := by
  induction count generalizing builder with
  | zero => exact keeps
  | succ count ih => exact ih keeps.close

end Keeps

theorem outer_closeOuter (builder : Builder) (count : Nat) :
    (builder.closeOuter count).outer = builder.outer.drop count := by
  induction count generalizing builder with
  | zero => rfl
  | succ count ih => rw [Builder.closeOuter, ih, outer_close, List.drop_tail]

theorem Keeps.finish (keeps : builder.Keeps offset span) :
    builder.finish.HoldsItem offset span := by
  have alone : (builder.closeOuter builder.outer.length).outer = [] := by
    rw [outer_closeOuter, List.drop_length]
  rcases (keeps.closeOuter builder.outer.length).flush none with kept | ⟨opened, member, _⟩
  · exact OpenNode.holdsItem_close kept
  · rw [show ((builder.closeOuter _).flush none).outer = [] from alone] at member
    contradiction

end Builder

/-- An item that a stream opens is in the document that the whole stream describes. -/
theorem Document.holds_openedItem (source : Source) (linkify : Bool) (before after : List Event)
    (opens : ((before.foldl Builder.add (.ofSource source linkify)).top.payload = .listItem offset))
    (place : (before.foldl Builder.add (.ofSource source linkify)).top.span = span) :
    ∃ view, (Document.ofEvents source linkify (before ++ after)).Holds view ∧
      view.node.payload = .listItem offset ∧ view.node.span = span := by
  have keeps : (before.foldl Builder.add (.ofSource source linkify)).Keeps offset span :=
    .inl (.inl ⟨opens, place⟩)
  refine Document.Holds.exists_item ?_ .root rfl
  rw [Document.ofEvents, List.foldl_append]
  exact (keeps.addAll after).finish

end CanonicalMarkdown
