import CanonicalMarkdown.Proofs.Markdown.Alike
import CanonicalMarkdown.Proofs.SamePage

namespace CanonicalMarkdown.Markdown

/-- What a rule, or a gap, sees of an ancestor. -/
def facet (place : Place) : Payload × Char := (place.node.payload, listBullet place)

variable {left right : List Place}

theorem any_of_facets (facets : left.map facet = right.map facet) (test : Payload → Bool) :
    left.any (fun place => test place.node.payload) =
      right.any fun place => test place.node.payload := by
  have same := congrArg (·.any fun seen => test seen.1) facets
  rw [List.any_map, List.any_map] at same
  exact same

theorem within_of_facets (facets : left.map facet = right.map facet) (source : Source)
    (place other : Place) (kind : Kind) :
    View.within ⟨source, place, left⟩ kind = View.within ⟨source, other, right⟩ kind := by
  simp only [View.within, View.ancestor?, List.isSome_find?]
  exact any_of_facets facets fun payload => payload.kind = kind

theorem head?_of_facets (facets : left.map facet = right.map facet) :
    left.head?.map facet = right.head?.map facet := by
  rw [← List.head?_map, ← List.head?_map, facets]

theorem parentPayload?_of_facets (facets : left.map facet = right.map facet) :
    left.head?.map (·.node.payload) = right.head?.map (·.node.payload) := by
  have same := congrArg (·.map Prod.fst) (head?_of_facets facets)
  simpa [facet, Function.comp_def] using same

variable {source : Source} {place other : Place}

theorem runBreak_of_facets (facets : left.map facet = right.map facet) (run : TextRun) :
    runBreak ⟨source, place, left⟩ run = runBreak ⟨source, other, right⟩ run := by
  unfold runBreak
  rw [within_of_facets facets]

theorem tableHeadEnd_of_facets (facets : left.map facet = right.map facet) :
    tableHeadEnd ⟨source, place, left⟩ = tableHeadEnd ⟨source, other, right⟩ := by
  unfold tableHeadEnd
  rw [show View.parentPayload? ⟨source, place, left⟩ = View.parentPayload? ⟨source, other, right⟩
    from parentPayload?_of_facets facets]

theorem itemReply_of_facets (facets : left.map facet = right.map facet)
    (index : left.head?.any (·.node.kind = .list) = true → place.index = other.index)
    (offset : Nat) (phase : Phase) :
    itemReply ⟨source, place, left⟩ offset phase =
      itemReply ⟨source, other, right⟩ offset phase := by
  have parents := head?_of_facets facets
  unfold itemReply View.parent?
  cases found : left.head? with
  | none =>
    rw [found] at parents
    rw [Option.map_eq_none_iff.mp parents.symm]
  | some parent =>
    rw [found] at parents index
    obtain ⟨otherParent, foundOther, same⟩ := Option.map_eq_some_iff.mp parents.symm
    obtain ⟨payload, bullet⟩ := Prod.mk.inj same
    simp only [foundOther, payload]
    cases shape : parent.node.payload with
    | list style =>
      have inList : place.index = other.index :=
        index (by simp [Node.kind, shape, Payload.kind])
      have marker : itemMarker parent style place.index =
          itemMarker otherParent style other.index := by
        unfold itemMarker
        rw [bullet, inList]
      cases phase
      · simp only [marker]
      · rfl
    | _ => rfl

theorem reply_of_facets (facets : left.map facet = right.map facet) {payload : Payload}
    {span otherSpan : Span} {attributes : Attributes} {children others : List Node}
    {earlier later otherEarlier otherLater : List Node}
    (same : payload.kind ≠ .paragraph → span = otherSpan)
    (mark : payload.kind = .emphasis → delimiterOf source ⟨payload, span, attributes, children⟩ =
      delimiterOf source ⟨payload, otherSpan, attributes, others⟩)
    (copied : payload.kind = .image ∨ payload.kind = .codeSpan → children = others)
    (index : left.head?.any (·.node.kind = .list) = true → earlier.length = otherEarlier.length)
    (phase : Phase) :
    reply ⟨source, ⟨⟨payload, span, attributes, children⟩, earlier, later⟩, left⟩ phase =
      reply ⟨source, ⟨⟨payload, otherSpan, attributes, others⟩, otherEarlier, otherLater⟩, right⟩
        phase := by
  by_cases paragraph : payload.kind = .paragraph
  · cases payload <;> first | contradiction | (cases phase <;> rfl)
  · obtain rfl := same paragraph
    cases payload with
    | listItem offset =>
      cases phase <;> refine itemReply_of_facets facets ?_ offset _ <;> exact index
    | text run =>
      cases phase with
      | enter =>
        simp only [reply, enter, View.node]
        rw [runBreak_of_facets facets run]
      | leave => rfl
    | tableHead =>
      cases phase with
      | enter => rfl
      | leave => exact tableHeadEnd_of_facets facets
    | emphasis level =>
      have sameMark := mark rfl
      cases phase with
      | enter => simp only [reply, enter, View.node, sameMark]
      | leave => simp only [reply, leave, View.node, sameMark]
    | codeSpan | image =>
      obtain rfl := copied (by simp [Payload.kind])
      cases phase <;> rfl
    | _ => cases phase <;> rfl

theorem any_getElem?_of_facets (facets : left.map facet = right.map facet)
    (test : Payload → Bool) (index : Nat) :
    left[index]?.any (fun place => test place.node.payload) =
      right[index]?.any fun place => test place.node.payload := by
  have same := congrArg (fun seen => seen[index]?.any fun seen => test seen.1) facets
  simp only [List.getElem?_map, Option.any_map] at same
  exact same

/-- What the gap before a node depends on. -/
def gapFacet (node : Node) : Bool × Bool := (Gap.interrupts node, Gap.isTightDetails node)

theorem between_of_facets (facets : left.map facet = right.map facet) {node otherNode next
    otherNext : Node} (kind : node.kind = otherNode.kind) (after : gapFacet next = gapFacet otherNext) :
    Gap.between node (left.head?.map (·.node)) (left[1]?.map (·.node)) next =
      Gap.between otherNode (right.head?.map (·.node)) (right[1]?.map (·.node)) otherNext := by
  obtain ⟨interrupts, details⟩ := Prod.mk.inj after
  have tight (index : Nat) : left[index]?.any (·.node.isTightList) =
      right[index]?.any (·.node.isTightList) :=
    any_getElem?_of_facets facets (fun payload => Node.isTightList ⟨payload, default, {}, []⟩) index
  have item : left.head?.any (·.node.kind = .listItem) = right.head?.any (·.node.kind = .listItem) := by
    rw [List.head?_eq_getElem?, List.head?_eq_getElem?]
    exact any_getElem?_of_facets facets (fun payload => payload.kind = .listItem) 0
  have list := tight 0
  rw [← List.head?_eq_getElem?, ← List.head?_eq_getElem?] at list
  rw [between_eq, between_eq, inTightItem, inTightItem, kind, interrupts, details, list, item, tight 1]

theorem writeGap_of_facets (facets : left.map facet = right.map facet) (renderer : Renderer)
    (kind : place.node.kind = other.node.kind)
    (after : place.later.head?.map gapFacet = other.later.head?.map gapFacet) {page otherPage : Page}
    (pages : page.Same otherPage) : (renderer.writeGap ⟨source, place, left⟩ page).Same
      (renderer.writeGap ⟨source, other, right⟩ otherPage) := by
  unfold Renderer.writeGap Place.next?
  cases found : place.later.head? with
  | none =>
    rw [found] at after
    rw [Option.map_eq_none_iff.mp after.symm]
    exact pages
  | some next =>
    rw [found] at after
    obtain ⟨otherNext, foundOther, same⟩ := Option.map_eq_some_iff.mp after.symm
    have gap := between_of_facets facets kind same.symm
    by_cases block : (renderer.separators && other.node.kind.isBlock) = true
    · simp only [foundOther, View.node, kind, block, if_true, gap]
      exact pages.writeGap _
    · simp only [foundOther, View.node, kind, block]
      exact pages

end CanonicalMarkdown.Markdown
