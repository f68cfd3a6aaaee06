import CanonicalMarkdown.Anchor.Heading
import CanonicalMarkdown.Link.External
import CanonicalMarkdown.Proofs.Misplacement

namespace CanonicalMarkdown

/-- An item belongs into a list and a table head into a table; all else may stand anywhere. -/
def Kind.mayStandIn : Kind → Kind → Bool
  | .listItem, parent => parent = .list
  | .tableHead, parent => parent = .table
  | _, _ => true

theorem Kind.mayStandIn_of_not_isBlock {kind : Kind} (inline : kind.isBlock = false)
    (parent : Kind) : kind.mayStandIn parent = true := by
  cases kind <;> first | rfl | contradiction

inductive Node.Placed : Node → Prop
  | intro {payload : Payload} {span : Span} {attributes : Attributes} {children : List Node} :
      (∀ child ∈ children, child.kind.mayStandIn payload.kind = true) →
      (∀ child ∈ children, child.Placed) → Node.Placed ⟨payload, span, attributes, children⟩

structure PlacedIn (parent : Kind) (nodes : List Node) : Prop where
  fits : ∀ node ∈ nodes, node.kind.mayStandIn parent = true
  below : ∀ node ∈ nodes, node.Placed

theorem Node.placed_iff {node : Node} : node.Placed ↔ PlacedIn node.kind node.children := by
  obtain ⟨payload, span, attributes, children⟩ := node
  constructor
  · rintro ⟨fits, below⟩
    exact ⟨fits, below⟩
  · intro placed
    exact ⟨placed.fits, placed.below⟩

namespace PlacedIn

variable {parent : Kind}

theorem nil : PlacedIn parent [] := ⟨by simp, by simp⟩

theorem cons {node : Node} {rest : List Node} (fits : node.kind.mayStandIn parent = true)
    (placed : node.Placed) (more : PlacedIn parent rest) : PlacedIn parent (node :: rest) := by
  constructor
  · intro other member
    rcases List.mem_cons.mp member with rfl | member
    · exact fits
    · exact more.fits other member
  · intro other member
    rcases List.mem_cons.mp member with rfl | member
    · exact placed
    · exact more.below other member

theorem singleton {node : Node} (fits : node.kind.mayStandIn parent = true)
    (placed : node.Placed) : PlacedIn parent [node] := cons fits placed nil

theorem head {node : Node} {rest : List Node} (placed : PlacedIn parent (node :: rest)) :
    node.kind.mayStandIn parent = true ∧ node.Placed :=
  ⟨placed.fits node (by simp), placed.below node (by simp)⟩

theorem subset {some all : List Node} (placed : PlacedIn parent all) (subset : some ⊆ all) :
    PlacedIn parent some :=
  ⟨fun node member => placed.fits node (subset member),
    fun node member => placed.below node (subset member)⟩

theorem tail {node : Node} {rest : List Node} (placed : PlacedIn parent (node :: rest)) :
    PlacedIn parent rest := placed.subset (by simp)

theorem append {left right : List Node} (first : PlacedIn parent left)
    (second : PlacedIn parent right) : PlacedIn parent (left ++ right) := by
  constructor
  · intro node member
    rcases List.mem_append.mp member with member | member
    · exact first.fits node member
    · exact second.fits node member
  · intro node member
    rcases List.mem_append.mp member with member | member
    · exact first.below node member
    · exact second.below node member

end PlacedIn

def Document.WellPlaced (document : Document) : Prop :=
  ∀ view, document.Holds view → view.isStrayItem = false ∧ view.isStrayHead = false

theorem Document.Holds.placed {document : Document} {view : View} (holds : document.Holds view)
    (root : document.root.Placed) : view.node.Placed := by
  induction holds with
  | root => exact root
  | child above children ih =>
    have placed := Node.placed_iff.mp ih
    rw [children] at placed
    exact placed.below _ (by simp [View.node])

theorem Document.wellPlaced_of_placed {document : Document} (placed : document.root.Placed)
    (kind : document.root.kind = .document) : document.WellPlaced := by
  intro view holds
  cases holds with
  | root => simp [View.isStrayItem, View.isStrayHead, View.node, kind]
  | @child parent node earlier later above children =>
    have fits := (Node.placed_iff.mp (above.placed placed)).fits node (by simp [children])
    have inside (kind : Kind) :
        View.isIn ⟨document.source, ⟨node, earlier, later⟩, parent.place :: parent.ancestors⟩ kind =
          (parent.node.kind = kind) := by
      simp [View.isIn, View.parent?, View.node]
    constructor
    · by_cases item : node.kind = .listItem
      · simp_all [View.isStrayItem, Kind.mayStandIn]
      · simp [View.isStrayItem, View.node, item]
    · by_cases head : node.kind = .tableHead
      · simp_all [View.isStrayHead, Kind.mayStandIn]
      · simp [View.isStrayHead, View.node, head]

namespace Anchor

theorem kind_assignIds (ledger : Ledger) (node : Node) :
    (assignIds ledger node).1.kind = node.kind := by
  obtain ⟨payload, span, attributes, children⟩ := node
  cases payload <;> simp [assignIds, Node.kind]

mutual

theorem placed_assignIds (ledger : Ledger) : ∀ node : Node, node.Placed →
    (assignIds ledger node).1.Placed
  | ⟨payload, span, attributes, children⟩, placed => by
    have below := Node.placed_iff.mp placed
    cases payload with
    | heading level =>
      rw [assignIds]
      exact Node.placed_iff.mpr (placedIn_assignAllIds _ children below)
    | _ =>
      simp only [assignIds]
      exact Node.placed_iff.mpr (placedIn_assignAllIds _ children below)

theorem placedIn_assignAllIds {parent : Kind} (ledger : Ledger) : ∀ nodes : List Node,
    PlacedIn parent nodes → PlacedIn parent (assignAllIds ledger nodes).1
  | [], _ => by
    rw [assignAllIds]
    exact .nil
  | node :: rest, placed => by
    rw [assignAllIds]
    refine .cons ?_ (placed_assignIds ledger node placed.head.2)
      (placedIn_assignAllIds _ rest placed.tail)
    rw [kind_assignIds]
    exact placed.head.1

end

end Anchor

theorem Node.kind_markExternalLinks (node : Node) : node.markExternalLinks.kind = node.kind := by
  obtain ⟨payload, span, attributes, children⟩ := node
  rw [Node.markExternalLinks]
  split <;> rfl

mutual

theorem Node.placed_markExternalLinks : ∀ node : Node, node.Placed → node.markExternalLinks.Placed
  | ⟨payload, span, attributes, children⟩, placed => by
    have below := Node.placed_iff.mp placed
    rw [Node.markExternalLinks]
    split
    · exact Node.placed_iff.mpr below
    · exact placed
    · exact Node.placed_iff.mpr (placedIn_markAllExternalLinks children below)

theorem placedIn_markAllExternalLinks {parent : Kind} : ∀ nodes : List Node,
    PlacedIn parent nodes → PlacedIn parent (markAllExternalLinks nodes)
  | [], _ => by
    rw [markAllExternalLinks]
    exact .nil
  | node :: rest, placed => by
    rw [markAllExternalLinks]
    refine .cons ?_ (node.placed_markExternalLinks placed.head.2)
      (placedIn_markAllExternalLinks rest placed.tail)
    rw [node.kind_markExternalLinks]
    exact placed.head.1

end

namespace Renderer

theorem renders_of_wellPlaced_markdown {renderer : Renderer} {priority : Int} {document : Document}
    (alone : DispatchTable.ofProviders [Markdown.provider priority] = .ok renderer.table)
    (placed : document.WellPlaced) : ∃ text, renderer.render document = .ok text := by
  refine render_of_no_complaint (Markdown.follows alone) ?_
  show (document.visits Markdown.hides).findSome? Markdown.ruleSet.complaint = none
  rw [Markdown.findSome?_complaint, List.findSome?_eq_none_iff]
  rintro ⟨view, phase⟩ member
  obtain ⟨item, head⟩ := placed view (Document.mem_visits.mp member).1
  cases phase <;> simp [Markdown.offence, item, head]

theorem renders_of_wellPlaced_html {renderer : Renderer} {priority : Int} {document : Document}
    (alone : DispatchTable.ofProviders [Html.provider priority] = .ok renderer.table)
    (placed : document.WellPlaced) : ∃ text, renderer.render document = .ok text := by
  refine render_of_no_complaint (Html.follows alone) ?_
  show (document.visits Html.hides).findSome? Html.ruleSet.complaint = none
  rw [Html.findSome?_complaint, List.findSome?_eq_none_iff]
  rintro ⟨view, phase⟩ member
  have item := (placed view (Document.mem_visits.mp member).1).1
  cases phase <;> simp [Html.offence, item]

end Renderer

end CanonicalMarkdown
