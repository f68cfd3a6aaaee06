import CanonicalMarkdown.Proofs.Markdown.TidyRules

namespace CanonicalMarkdown.Markdown

def isRegarded (place : Place) : Bool :=
  match place.node.kind with
  | .list | .listItem | .table => true
  | _ => false

def inTightItem (ancestors : List Place) : Bool :=
  ancestors.head?.any (·.node.kind = .listItem) && ancestors[1]?.any (·.node.isTightList)

theorem between_eq (node next : Node) (ancestors : List Place) :
    Gap.between node (ancestors.head?.map (·.node)) (ancestors[1]?.map (·.node)) next =
      if (decide (node.kind = .listItem) && ancestors.head?.any (·.node.isTightList))
          || inTightItem ancestors || Gap.interrupts next || Gap.endsOwnLine node.kind
          || Gap.isTableLine node.kind || (Gap.isDefinitionPart node.kind && Gap.isTightDetails next)
      then .newline else .blankLine := by
  simp only [Gap.between, Option.any_map, inTightItem]
  rfl

structure Alike (left right : List Place) : Prop where
  parent : left.head? = right.head? ∨
    (left.head?.any isRegarded = false ∧ right.head?.any isRegarded = false)
  tight : inTightItem left = inTightItem right
  heading : left.any (·.node.kind = .heading) = right.any (·.node.kind = .heading)

theorem isRegarded_of_isTightList {place : Place} (tight : place.node.isTightList = true) :
    isRegarded place = true := by
  cases payload : place.node.payload with
  | list style =>
    rw [isRegarded, Node.kind, payload]
    rfl
  | _ =>
    rw [Node.isTightList, payload] at tight
    contradiction

namespace Alike

variable {left right : List Place}

theorem refl (ancestors : List Place) : Alike ancestors ancestors := ⟨.inl rfl, rfl, rfl⟩

theorem isTightList_head (alike : Alike left right) :
    left.head?.any (·.node.isTightList) = right.head?.any (·.node.isTightList) := by
  rcases alike.parent with same | ⟨plainLeft, plainRight⟩
  · rw [same]
  · have plain {ancestors : List Place} (unregarded : ancestors.head?.any isRegarded = false) :
        ancestors.head?.any (·.node.isTightList) = false := by
      cases found : ancestors.head? with
      | none => rfl
      | some parent =>
        rw [found] at unregarded
        rw [Option.any_some, ← Bool.not_eq_true]
        intro tight
        rw [Option.any_some, isRegarded_of_isTightList tight] at unregarded
        contradiction
    rw [plain plainLeft, plain plainRight]

theorem cons (alike : Alike left right) (place : Place) :
    Alike (place :: left) (place :: right) := by
  refine ⟨.inl rfl, ?_, ?_⟩
  · have above := alike.isTightList_head
    simp only [inTightItem, List.head?_cons, List.getElem?_cons_succ, ← List.head?_eq_getElem?]
    rw [above]
  · simp only [List.any_cons, alike.heading]

theorem parent_eq (alike : Alike left right) {parent : Place} (found : left.head? = some parent)
    (regarded : isRegarded parent = true) : right.head? = some parent := by
  rcases alike.parent with same | ⟨plain, _⟩
  · rw [← same, found]
  · rw [found, Option.any_some, regarded] at plain
    contradiction

variable {source : Source} {place : Place}

theorem runBreak_eq (alike : Alike left right) (run : TextRun) :
    runBreak ⟨source, place, left⟩ run = runBreak ⟨source, place, right⟩ run := by
  have within : View.within ⟨source, place, left⟩ .heading =
      View.within ⟨source, place, right⟩ .heading := by
    simp only [View.within, View.ancestor?, List.isSome_find?]
    exact alike.heading
  unfold runBreak
  rw [within]

theorem itemReply_eq (alike : Alike left right) {offset : Nat}
    (fits : (Payload.listItem offset).fitsIn (left.head?.map (·.node.payload)) = true)
    (phase : Phase) : itemReply ⟨source, place, left⟩ offset phase =
      itemReply ⟨source, place, right⟩ offset phase := by
  obtain ⟨parent, style, found, payload, _⟩ : ∃ parent style, left.head? = some parent ∧
      parent.node.payload = .list style ∧ style.marker ≠ '\n' :=
    @View.list_of_fitsIn ⟨source, place, left⟩ offset fits
  have same : right.head? = some parent :=
    alike.parent_eq found (by simp only [isRegarded, Node.kind, payload, Payload.kind])
  simp only [itemReply, View.parent?, found, same]

theorem tableHeadEnd_eq (alike : Alike left right)
    (fits : Payload.tableHead.fitsIn (left.head?.map (·.node.payload)) = true) :
    tableHeadEnd ⟨source, place, left⟩ = tableHeadEnd ⟨source, place, right⟩ := by
  obtain ⟨parent, alignments, found, payload⟩ : ∃ parent alignments, left.head? = some parent ∧
      parent.node.payload = .table alignments := @View.table_of_fitsIn ⟨source, place, left⟩ fits
  have same : right.head? = some parent :=
    alike.parent_eq found (by simp only [isRegarded, Node.kind, payload, Payload.kind])
  simp only [tableHeadEnd, View.parentPayload?, View.parent?, found, same]

theorem reply_eq (alike : Alike left right)
    (fits : place.node.payload.fitsIn (left.head?.map (·.node.payload)) = true) (phase : Phase) :
    reply ⟨source, place, left⟩ phase = reply ⟨source, place, right⟩ phase := by
  cases phase with
  | enter =>
    simp only [reply, enter, View.node]
    cases payload : place.node.payload with
    | listItem offset =>
      rw [payload] at fits
      exact alike.itemReply_eq fits .enter
    | text run => simp only [alike.runBreak_eq run]
    | _ => rfl
  | leave =>
    simp only [reply, leave, View.node]
    cases payload : place.node.payload with
    | listItem offset =>
      rw [payload] at fits
      exact alike.itemReply_eq fits .leave
    | tableHead =>
      rw [payload] at fits
      exact alike.tableHeadEnd_eq fits
    | _ => rfl

theorem writeGap_eq (alike : Alike left right) (renderer : Renderer) (page : Page) :
    renderer.writeGap ⟨source, place, left⟩ page = renderer.writeGap ⟨source, place, right⟩ page := by
  unfold Renderer.writeGap
  cases later : place.next? with
  | none => rfl
  | some next =>
    have gap : Gap.between place.node (left.head?.map (·.node)) (left[1]?.map (·.node)) next =
        Gap.between place.node (right.head?.map (·.node)) (right[1]?.map (·.node)) next := by
      rw [between_eq, between_eq, alike.tight, alike.isTightList_head]
    simp only [View.node, gap]
    rfl

end Alike

end CanonicalMarkdown.Markdown
