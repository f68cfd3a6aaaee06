import CanonicalMarkdown.Anchor.Heading
import CanonicalMarkdown.Proofs.Link.Secured

namespace CanonicalMarkdown

section Places

/-- The node that the indices of children lead to. -/
def Node.at? (node : Node) : List Nat → Option Node
  | [] => some node
  | index :: path => (node.children[index]?).bind (·.at? path)

def Node.isLink (node : Node) : Bool := node.kind = .link || node.kind = .autoLink

def Node.InsideLink (root : Node) (path : List Nat) : Prop :=
  ∃ above below, path = above ++ below ∧ below ≠ [] ∧ (root.at? above).any isLink = true

def Payload.address? : Payload → Option String
  | .link target => some target.destination
  | .autoLink url false => some url
  | _ => none

def Node.LeadsAway (node : Node) : Prop :=
  ∃ address, node.payload.address? = some address ∧ IsWebAddress address

variable {root child node : Node} {index : Nat} {path : List Nat}

theorem Node.not_insideLink_nil : ¬root.InsideLink [] := by
  rintro ⟨above, below, whole, some, -⟩
  exact some (List.append_eq_nil_iff.mp whole.symm).2

theorem Node.insideLink_cons (among : root.children[index]? = some child) :
    root.InsideLink (index :: path) ↔ root.isLink = true ∨ child.InsideLink path := by
  constructor
  · rintro ⟨above, below, whole, some, link⟩
    cases above with
    | nil => exact .inl (by simpa [Node.at?] using link)
    | cons first above =>
      obtain ⟨rfl, rfl⟩ := List.cons.inj whole
      rw [Node.at?, among] at link
      exact .inr ⟨above, below, rfl, some, link⟩
  · rintro (link | ⟨above, below, rfl, some, link⟩)
    · exact ⟨[], index :: path, rfl, by simp, by simpa [Node.at?] using link⟩
    · refine ⟨index :: above, below, rfl, some, ?_⟩
      rwa [Node.at?, among]

end Places

section Marks

variable {root node : Node} {path : List Nat}

theorem isExternalLink?_eq_some_true :
    node.payload.isExternalLink? = some true ↔ node.LeadsAway := by
  obtain ⟨payload, span, attributes, children⟩ := node
  cases payload with
  | link target =>
    simp [Payload.isExternalLink?, Node.LeadsAway, Payload.address?, isExternalAddress_iff]
  | autoLink url email =>
    cases email <;>
      simp [Payload.isExternalLink?, Node.LeadsAway, Payload.address?, isExternalAddress_iff]
  | _ => simp [Payload.isExternalLink?, Node.LeadsAway, Payload.address?]

theorem isSome_isExternalLink? (node : Node) :
    node.payload.isExternalLink?.isSome = node.isLink := by
  obtain ⟨payload, span, attributes, children⟩ := node
  cases payload <;> rfl

theorem markAllExternalLinks_eq_map (nodes : List Node) :
    markAllExternalLinks nodes = nodes.map Node.markExternalLinks := by
  induction nodes with
  | nil => rfl
  | cons node rest ih => rw [markAllExternalLinks, ih, List.map_cons]

theorem Node.children_markExternalLinks (node : Node) :
    node.markExternalLinks.children =
      if node.isLink then node.children else node.children.map Node.markExternalLinks := by
  have link := isSome_isExternalLink? node
  obtain ⟨payload, span, attributes, children⟩ := node
  rw [← link, Node.markExternalLinks]
  cases external : payload.isExternalLink? with
  | none => exact markAllExternalLinks_eq_map children
  | some leads => cases leads <;> rfl

/-- What the pass leaves of a node: a link that leads away gets its marks unless it lies inside
    another link, and nothing else changes. -/
structure Node.Marks (inside : Prop) (before after : Node) : Prop where
  payload : after.payload = before.payload
  span : after.span = before.span
  children : after.children.length = before.children.length
  secures : before.LeadsAway → ¬inside → before.attributes.Secures after.attributes
  keeps : ¬before.LeadsAway ∨ inside → after.attributes = before.attributes

theorem Node.marks_inside {inside : Prop} (within : inside) (node : Node) :
    node.Marks inside node :=
  ⟨rfl, rfl, rfl, fun _ outside => absurd within outside, fun _ => rfl⟩

theorem Node.marks_markExternalLinks {inside : Prop} (outside : ¬inside) (node : Node) :
    node.Marks inside node.markExternalLinks := by
  have length : node.markExternalLinks.children.length = node.children.length := by
    rw [node.children_markExternalLinks]
    split
    · rfl
    · exact List.length_map _
  have leads : node.payload.isExternalLink? = some true ↔ node.LeadsAway :=
    isExternalLink?_eq_some_true
  obtain ⟨payload, span, attributes, children⟩ := node
  rw [Node.markExternalLinks] at length ⊢
  split at length
  · rename_i external
    have away := leads.mp external
    exact ⟨rfl, rfl, rfl, fun _ _ => attributes.secures_secure, fun kept =>
      absurd away (kept.resolve_right outside)⟩
  · rename_i external
    have home : ¬Node.LeadsAway ⟨payload, span, attributes, children⟩ := by
      rw [← leads, external]
      simp
    exact ⟨rfl, rfl, rfl, fun away => absurd away home, fun _ => rfl⟩
  · rename_i external
    have home : ¬Node.LeadsAway ⟨payload, span, attributes, children⟩ := by
      rw [← leads, external]
      simp
    exact ⟨rfl, rfl, length, fun away => absurd away home, fun _ => rfl⟩

/-- The pass goes down to every place that no link lies above, and leaves alone what is inside
    one. -/
theorem Node.at?_markExternalLinks (root : Node) (path : List Nat) :
    (root.InsideLink path → root.markExternalLinks.at? path = root.at? path) ∧
    (¬root.InsideLink path →
      root.markExternalLinks.at? path = (root.at? path).map Node.markExternalLinks) := by
  induction path generalizing root with
  | nil => exact ⟨fun inside => absurd inside Node.not_insideLink_nil, fun _ => rfl⟩
  | cons index path ih =>
    rw [Node.at?, Node.at?, root.children_markExternalLinks]
    cases among : root.children[index]? with
    | none => split <;> simp [among]
    | some child =>
      rw [Node.insideLink_cons among]
      cases link : root.isLink with
      | true => simp [among]
      | false =>
        obtain ⟨inside, outside⟩ := ih child
        simp only [Bool.false_eq_true, false_or, if_false, List.getElem?_map, among,
          Option.map_some, Option.bind_some]
        exact ⟨inside, outside⟩

end Marks

section Passes

mutual

theorem Node.plainText_markExternalLinks : ∀ node : Node,
    node.markExternalLinks.plainText = node.plainText
  | ⟨payload, span, attributes, children⟩ => by
    have below := plainTexts_markAllExternalLinks children
    rw [Node.markExternalLinks]
    cases external : payload.isExternalLink? with
    | none => cases payload <;> first | rfl | exact below
    | some leads =>
      cases leads with
      | false => rfl
      | true => cases payload <;> rfl

theorem plainTexts_markAllExternalLinks : ∀ nodes : List Node,
    plainTexts (markAllExternalLinks nodes) = plainTexts nodes
  | [] => rfl
  | node :: rest => by
    rw [markAllExternalLinks, plainTexts, plainTexts, node.plainText_markExternalLinks,
      plainTexts_markAllExternalLinks]

end

mutual

theorem Node.markExternalLinks_twice : ∀ node : Node,
    node.markExternalLinks.markExternalLinks = node.markExternalLinks
  | ⟨payload, span, attributes, children⟩ => by
    have below := markAllExternalLinks_twice children
    cases external : payload.isExternalLink? with
    | none => simp only [Node.markExternalLinks, external, below]
    | some leads =>
      cases leads <;> simp only [Node.markExternalLinks, external, attributes.secure_secure]

theorem markAllExternalLinks_twice : ∀ nodes : List Node,
    markAllExternalLinks (markAllExternalLinks nodes) = markAllExternalLinks nodes
  | [] => rfl
  | node :: rest => by
    simp only [markAllExternalLinks, node.markExternalLinks_twice, markAllExternalLinks_twice]

end

namespace Anchor

mutual

theorem takeIds_markExternalLinks (ledger : Ledger) : ∀ node : Node,
    takeIds ledger node.markExternalLinks = takeIds ledger node
  | ⟨payload, span, attributes, children⟩ => by
    have below := fun ledger => takeAllIds_markAllExternalLinks ledger children
    rw [Node.markExternalLinks]
    cases external : payload.isExternalLink? with
    | none => cases payload <;> exact below _
    | some leads =>
      cases leads with
      | false => rfl
      | true => cases payload <;> first | rfl | contradiction

theorem takeAllIds_markAllExternalLinks (ledger : Ledger) : ∀ nodes : List Node,
    takeAllIds ledger (markAllExternalLinks nodes) = takeAllIds ledger nodes
  | [] => rfl
  | node :: rest => by
    rw [markAllExternalLinks, takeAllIds, takeAllIds, takeIds_markExternalLinks,
      takeAllIds_markAllExternalLinks]

end

mutual

theorem assignIds_markExternalLinks (ledger : Ledger) : ∀ node : Node,
    assignIds ledger node.markExternalLinks =
      ((assignIds ledger node).1.markExternalLinks, (assignIds ledger node).2)
  | ⟨payload, span, attributes, children⟩ => by
    have below := fun ledger => assignAllIds_markAllExternalLinks ledger children
    have text := plainTexts_markAllExternalLinks children
    cases payload with
    | heading level =>
      simp only [Node.markExternalLinks, Payload.isExternalLink?, assignIds, text, below]
    | link target =>
      cases leads : isExternalAddress target.destination <;>
        simp only [Node.markExternalLinks, Payload.isExternalLink?, leads, assignIds]
    | autoLink url email =>
      cases leads : !email && isExternalAddress url <;>
        simp only [Node.markExternalLinks, Payload.isExternalLink?, leads, assignIds]
    | _ => simp only [Node.markExternalLinks, Payload.isExternalLink?, assignIds, below]

theorem assignAllIds_markAllExternalLinks (ledger : Ledger) : ∀ nodes : List Node,
    assignAllIds ledger (markAllExternalLinks nodes) =
      (markAllExternalLinks (assignAllIds ledger nodes).1, (assignAllIds ledger nodes).2)
  | [] => rfl
  | node :: rest => by
    simp only [markAllExternalLinks, assignAllIds, assignIds_markExternalLinks,
      assignAllIds_markAllExternalLinks]

end

end Anchor

end Passes

/-- Every link that leads away and lies in no other link gets its marks, and nothing else changes; a
    second pass changes nothing, and headings get the same anchors before the pass as behind it. -/
theorem Document.markExternalLinks_marks (document : Document) :
    document.markExternalLinks.source = document.source ∧
    (∀ path, Option.Rel (Node.Marks (document.root.InsideLink path)) (document.root.at? path)
      (document.markExternalLinks.root.at? path)) ∧
    document.markExternalLinks.markExternalLinks = document.markExternalLinks ∧
    document.markExternalLinks.anchorHeadings = document.anchorHeadings.markExternalLinks := by
  refine ⟨rfl, fun path => ?_, ?_, ?_⟩
  · obtain ⟨inside, outside⟩ := document.root.at?_markExternalLinks path
    show Option.Rel _ _ (document.root.markExternalLinks.at? path)
    by_cases within : document.root.InsideLink path
    · rw [inside within]
      cases document.root.at? path with
      | none => exact .none
      | some node => exact .some (node.marks_inside within)
    · rw [outside within]
      cases document.root.at? path with
      | none => exact .none
      | some node => exact .some (node.marks_markExternalLinks within)
  · rw [Document.markExternalLinks, Document.markExternalLinks,
      document.root.markExternalLinks_twice]
  · simp only [Document.markExternalLinks, Document.anchorHeadings,
      Anchor.takeIds_markExternalLinks, Anchor.assignIds_markExternalLinks]

end CanonicalMarkdown
