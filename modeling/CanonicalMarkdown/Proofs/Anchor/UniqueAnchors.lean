import CanonicalMarkdown.Proofs.Anchor.FreeAnchor

namespace CanonicalMarkdown.Anchor

open Ledger

mutual

/-- The headings at and below a node, in the order of the document. -/
def headings : Node → List Node
  | ⟨.heading level, span, attributes, children⟩ =>
    ⟨.heading level, span, attributes, children⟩ :: allHeadings children
  | ⟨_, _, _, children⟩ => allHeadings children

def allHeadings : List Node → List Node
  | [] => []
  | node :: rest => headings node ++ allHeadings rest

end

mutual

/-- The second node is the first with the ids put on its headings that have none, in the order of
    the document, each behind the attributes that are there. -/
inductive Anchored : Node → List String → Node → Prop
  | named {level : Nat} {span : Span} {attributes : Attributes} {children children' : List Node}
      {ids : List String} :
      attributes.contains "id" = true → AllAnchored children ids children' →
      Anchored ⟨.heading level, span, attributes, children⟩ ids
        ⟨.heading level, span, attributes, children'⟩
  | unnamed {level : Nat} {span : Span} {attributes : Attributes}
      {children children' : List Node} {id : String} {ids : List String} :
      attributes.contains "id" = false → AllAnchored children ids children' →
      Anchored ⟨.heading level, span, attributes, children⟩ (id :: ids)
        ⟨.heading level, span, attributes.push "id" (some id), children'⟩
  | other {payload : Payload} {span : Span} {attributes : Attributes}
      {children children' : List Node} {ids : List String} :
      payload.kind ≠ .heading → AllAnchored children ids children' →
      Anchored ⟨payload, span, attributes, children⟩ ids ⟨payload, span, attributes, children'⟩

inductive AllAnchored : List Node → List String → List Node → Prop
  | nil : AllAnchored [] [] []
  | cons {node node' : Node} {rest rest' : List Node} {ids more : List String} :
      Anchored node ids node' → AllAnchored rest more rest' →
      AllAnchored (node :: rest) (ids ++ more) (node' :: rest')

end

theorem set_of_not_contains {attributes : Attributes} {name : String}
    (absent : attributes.contains name = false) (value : String) :
    attributes.set name value = attributes.push name (some value) := by
  obtain ⟨entries⟩ := attributes
  simp only [Attributes.set, Attributes.push, Attributes.mk.injEq]
  simp only [Attributes.contains] at absent
  induction entries with
  | nil => rfl
  | cons entry rest ih =>
    simp only [List.any_cons, Bool.or_eq_false_iff, decide_eq_false_iff_not] at absent
    simp [Attributes.setIn, absent.1, ih absent.2]

mutual

theorem anchored_assignIds (ledger : Ledger) : ∀ node : Node,
    ∃ ids, Anchored node ids (assignIds ledger node).1 ∧ Issued ledger ids (assignIds ledger node).2
  | ⟨payload, span, attributes, children⟩ => by
    cases payload with
    | heading level =>
      rw [assignIds]
      dsimp only
      by_cases named : attributes.contains "id" = true
      · simp only [headingId, named, if_true]
        obtain ⟨ids, below, issued⟩ := allAnchored_assignAllIds ledger children
        exact ⟨ids, .named named below, issued⟩
      · simp only [headingId, named]
        have absent : attributes.contains "id" = false := by simpa using named
        have fresh := issued_fresh ledger (plainTexts children)
        obtain ⟨ids, below, issued⟩ :=
          allAnchored_assignAllIds (ledger.fresh (plainTexts children)).2 children
        refine ⟨(ledger.fresh (plainTexts children)).1 :: ids, ?_, fresh.append issued⟩
        simp only [Bool.false_eq_true, if_false, set_of_not_contains absent]
        exact .unnamed absent below
    | _ =>
      obtain ⟨ids, below, issued⟩ := allAnchored_assignAllIds ledger children
      simp only [assignIds]
      exact ⟨ids, .other (by simp [Payload.kind]) below, issued⟩

theorem allAnchored_assignAllIds (ledger : Ledger) : ∀ nodes : List Node,
    ∃ ids, AllAnchored nodes ids (assignAllIds ledger nodes).1 ∧
      Issued ledger ids (assignAllIds ledger nodes).2
  | [] => by
    rw [assignAllIds]
    exact ⟨[], .nil, .nil ledger⟩
  | node :: rest => by
    rw [assignAllIds]
    obtain ⟨ids, first, issued⟩ := anchored_assignIds ledger node
    obtain ⟨more, others, issuedMore⟩ := allAnchored_assignAllIds (assignIds ledger node).2 rest
    exact ⟨ids ++ more, .cons first others, issued.append issuedMore⟩

end

mutual

theorem takeIds_takes (ledger : Ledger) : ∀ node : Node,
    (∀ other, ledger.count other ≤ (takeIds ledger node).count other) ∧
      ∀ heading ∈ headings node, ∀ id, heading.attributes.get? "id" = some id →
        (takeIds ledger node).count id ≠ 0
  | ⟨payload, span, attributes, children⟩ => by
    cases payload with
    | heading level =>
      rw [takeIds, headings]
      cases found : attributes.get? "id" with
      | none =>
        obtain ⟨kept, below⟩ := takeAllIds_takes ledger children
        refine ⟨kept, fun heading member id explicit => ?_⟩
        rcases List.mem_cons.mp member with rfl | member
        · simp [found] at explicit
        · exact below heading member id explicit
      | some anchor =>
        obtain ⟨kept, below⟩ := takeAllIds_takes (ledger.take anchor) children
        refine ⟨fun other => Nat.le_trans (count_take_le ledger anchor other) (kept other), ?_⟩
        intro heading member id explicit
        rcases List.mem_cons.mp member with rfl | member
        · obtain rfl : anchor = id := by simpa [found] using explicit
          have taken := kept anchor
          simp only [count_take, if_true] at taken
          simp only [Option.elim_some]
          omega
        · exact below heading member id explicit
    | _ =>
      simp only [takeIds, headings]
      exact takeAllIds_takes ledger children

theorem takeAllIds_takes (ledger : Ledger) : ∀ nodes : List Node,
    (∀ other, ledger.count other ≤ (takeAllIds ledger nodes).count other) ∧
      ∀ heading ∈ allHeadings nodes, ∀ id, heading.attributes.get? "id" = some id →
        (takeAllIds ledger nodes).count id ≠ 0
  | [] => by simp [takeAllIds, allHeadings]
  | node :: rest => by
    rw [takeAllIds, allHeadings]
    obtain ⟨kept, first⟩ := takeIds_takes ledger node
    obtain ⟨keptMore, others⟩ := takeAllIds_takes (takeIds ledger node) rest
    refine ⟨fun other => Nat.le_trans (kept other) (keptMore other), ?_⟩
    intro heading member id explicit
    rcases List.mem_append.mp member with member | member
    · have taken := first heading member id explicit
      have still := keptMore id
      omega
    · exact others heading member id explicit

end

theorem contains_push (attributes : Attributes) (name : String) (value : Option String) :
    (attributes.push name value).contains name = true := by
  simp [Attributes.push, Attributes.contains]

mutual

theorem Anchored.named_headings : ∀ {node node' : Node} {ids : List String},
    Anchored node ids node' →
    ∀ heading ∈ headings node', heading.attributes.contains "id" = true
  | _, _, _, .named present below, heading, member => by
    rw [headings] at member
    rcases List.mem_cons.mp member with rfl | member
    · exact present
    · exact below.named_headings heading member
  | _, _, _, .unnamed _ below, heading, member => by
    rw [headings] at member
    rcases List.mem_cons.mp member with rfl | member
    · exact contains_push _ "id" _
    · exact below.named_headings heading member
  | ⟨payload, _, _, _⟩, _, _, .other notHeading below, heading, member => by
    cases payload with
    | heading level => exact absurd rfl notHeading
    | _ =>
      simp only [headings] at member
      exact below.named_headings heading member

theorem AllAnchored.named_headings : ∀ {nodes nodes' : List Node} {ids : List String},
    AllAnchored nodes ids nodes' →
    ∀ heading ∈ allHeadings nodes', heading.attributes.contains "id" = true
  | _, _, _, .nil, heading, member => by simp [allHeadings] at member
  | _, _, _, .cons first others, heading, member => by
    rw [allHeadings] at member
    rcases List.mem_append.mp member with member | member
    · exact first.named_headings heading member
    · exact others.named_headings heading member

end

mutual

theorem assignIds_of_named (ledger : Ledger) : ∀ node : Node,
    (∀ heading ∈ headings node, heading.attributes.contains "id" = true) →
    assignIds ledger node = (node, ledger)
  | ⟨payload, span, attributes, children⟩, named => by
    cases payload with
    | heading level =>
      rw [headings] at named
      have here : attributes.contains "id" = true := named _ (List.mem_cons_self ..)
      have below := assignAllIds_of_named ledger children fun heading member =>
        named heading (List.mem_cons_of_mem _ member)
      simp [assignIds, headingId, here, below]
    | _ =>
      simp only [headings] at named
      simp [assignIds, assignAllIds_of_named ledger children named]

theorem assignAllIds_of_named (ledger : Ledger) : ∀ nodes : List Node,
    (∀ heading ∈ allHeadings nodes, heading.attributes.contains "id" = true) →
    assignAllIds ledger nodes = (nodes, ledger)
  | [], _ => rfl
  | node :: rest, named => by
    rw [allHeadings] at named
    have first := assignIds_of_named ledger node fun heading member =>
      named heading (List.mem_append_left _ member)
    have others := assignAllIds_of_named ledger rest fun heading member =>
      named heading (List.mem_append_right _ member)
    simp [assignAllIds, first, others]

end

end CanonicalMarkdown.Anchor

namespace CanonicalMarkdown

open Anchor

/-- The headings without an id get anchors that differ from each other and from every id that stands
    in the document; nothing else changes, and a second pass changes nothing. -/
theorem Document.anchorHeadings_unique (document : Document) :
    document.anchorHeadings.source = document.source ∧
    (∃ ids, Anchored document.root ids document.anchorHeadings.root ∧ ids.Nodup ∧
      ∀ id ∈ ids, IsAnchor id ∧
        ∀ heading ∈ headings document.root, heading.attributes.get? "id" ≠ some id) ∧
    (∀ heading ∈ headings document.anchorHeadings.root,
      heading.attributes.contains "id" = true) ∧
    document.anchorHeadings.anchorHeadings = document.anchorHeadings := by
  obtain ⟨_, explicit⟩ := takeIds_takes {} document.root
  obtain ⟨ids, anchored, issued⟩ := anchored_assignIds (takeIds {} document.root) document.root
  have named : ∀ heading ∈ headings document.anchorHeadings.root,
      heading.attributes.contains "id" = true := anchored.named_headings
  refine ⟨rfl, ⟨ids, anchored, issued.distinct, fun id member => ?_⟩, named, ?_⟩
  · refine ⟨issued.anchors id member, fun heading among found => ?_⟩
    exact explicit heading among id found (issued.free id member)
  · have again := assignIds_of_named (takeIds {} document.anchorHeadings.root) _ named
    rw [Document.anchorHeadings, again]

end CanonicalMarkdown
