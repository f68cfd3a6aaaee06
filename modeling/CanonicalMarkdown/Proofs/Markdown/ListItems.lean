import CanonicalMarkdown.Proofs.PaddedLines
import CanonicalMarkdown.Proofs.Placement
import CanonicalMarkdown.Proofs.VisitedPage

namespace CanonicalMarkdown

namespace Renderer

def walkView (renderer : Renderer) (view : View) : Page → Walked :=
  renderer.walk view.source view.ancestors view.place.earlier view.place.later view.node

def walkBelow (renderer : Renderer) (view : View) : Page → Walked :=
  renderer.walkAll view.source (view.place :: view.ancestors) [] view.node.children

end Renderer

def View.child (view : View) (node : Node) (earlier later : List Node) : View :=
  ⟨view.source, ⟨node, earlier, later⟩, view.place :: view.ancestors⟩

theorem Document.Holds.down {document : Document} {view : View} (holds : document.Holds view)
    {node : Node} {earlier later : List Node}
    (children : view.node.children = earlier.reverse ++ node :: later) :
    document.Holds (view.child node earlier later) := by
  rw [View.child, holds.source_eq]
  exact .child holds children

theorem Document.Holds.first {document : Document} {view : View} (holds : document.Holds view)
    {node : Node} {later : List Node} (children : view.node.children = node :: later) :
    document.Holds (view.child node [] later) :=
  holds.down (by simpa using children)

theorem View.Visible.down {hides : Kind → Bool} {view : View} (visible : view.Visible hides)
    (shown : hides view.node.kind = false) (node : Node) (earlier later : List Node) :
    (view.child node earlier later).Visible hides := by
  intro ancestor member
  rcases List.mem_cons.mp member with rfl | above
  · exact shown
  · exact visible ancestor above

theorem View.parent?_child (view : View) (node : Node) (earlier later : List Node) :
    (view.child node earlier later).parent? = some view.place := rfl

theorem Renderer.writeGap_of_followed {renderer : Renderer} {view : View}
    (separators : renderer.separators = true) (block : view.node.kind.isBlock = true)
    (followed : view.place.later ≠ []) :
    ∃ gap, ∀ page, renderer.writeGap view page = page.writeGap gap := by
  unfold writeGap Place.next?
  cases later : view.place.later with
  | nil => contradiction
  | cons next rest =>
    simp only [List.head?_cons, separators, block, Bool.and_self, if_true]
    exact ⟨_, fun page => rfl⟩

theorem Renderer.walkBelow_cons (renderer : Renderer) {view : View} {child : Node}
    {later : List Node} (children : view.node.children = child :: later) (page : Page) :
    renderer.walkBelow view page = (renderer.walkView (view.child child [] later) page).andThen
      (renderer.walkAll view.source (view.place :: view.ancestors) [child] later) := by
  rw [walkBelow, children, walkAll]
  rfl

namespace Markdown

variable {renderer : Renderer} {document : Document} {view : View}

theorem list_of_wellPlaced (placed : document.WellPlaced) (holds : document.Holds view)
    (item : view.node.kind = .listItem) :
    ∃ offset list style, view.node.payload = .listItem offset ∧ view.parent? = some list ∧
      list.node.payload = .list style := by
  have inSome : view.isIn .list = true := by
    simpa [View.isStrayItem, item] using (placed view holds).1
  obtain ⟨list, style, parent, inList⟩ := View.isIn_list.mp inSome
  cases payload : view.node.payload with
  | listItem offset => exact ⟨offset, list, style, rfl, parent, inList⟩
  | _ => simp [Node.kind, payload, Payload.kind] at item

theorem complaint_of_wellPlaced (placed : document.WellPlaced) (holds : document.Holds view)
    (phase : Phase) : ruleSet.complaint (view, phase) = none := by
  obtain ⟨item, head⟩ := placed view holds
  cases phase <;> simp [RuleSet.complaint, ruleSet, reply, next_enter, next_leave, item, head]

theorem next_of_wellPlaced (placed : document.WellPlaced) (holds : document.Holds view)
    (shown : hides view.node.kind = false) (phase : Phase) :
    (reply view phase).next = .ok .descend := by
  obtain ⟨item, head⟩ := placed view holds
  cases phase with
  | enter =>
    show (enter view).next = _
    rw [next_enter, item, shown]
    rfl
  | leave =>
    show (leave view).next = _
    rw [next_leave, item, head]
    rfl

theorem answer_of_wellPlaced (follows : renderer.Follows ruleSet) (placed : document.WellPlaced)
    (holds : document.Holds view) (shown : hides view.node.kind = false) {phase : Phase}
    {page answered : Page} (applied : page.applyAll (reply view phase).strokes = (answered, none)) :
    renderer.answer view phase page = (answered, .ok .descend) :=
  (follows.answer_of_applyAll applied).trans
    (congrArg (Prod.mk answered) (next_of_wellPlaced placed holds shown phase))

theorem walkBelow_of_wellPlaced (follows : renderer.Follows ruleSet) (placed : document.WellPlaced)
    (holds : document.Holds view) (visible : view.Visible hides)
    (shown : hides view.node.kind = false) (page : Page) :
    ∃ last, renderer.walkBelow view page = .done last ∧
      last.padding.levels = page.padding.levels := by
  have calm : (visitsAll hides view.source (view.place :: view.ancestors) []
      view.node.children).findSome? ruleSet.complaint = none := by
    refine List.findSome?_eq_none_iff.mpr fun visit member => ?_
    rw [holds.source_eq] at member
    have below := (holds_of_mem_visitsAll view.node.children holds rfl
      (visible.down shown view.node [] []) member).1
    exact complaint_of_wellPlaced placed below visit.2
  have ends := renderer.walkAll_ends follows view.source (view.place :: view.ancestors) []
    view.node.children page
  rw [show (visitsAll ruleSet.hides _ _ _ _).findSome? ruleSet.complaint = none from calm] at ends
  exact ends.done

theorem walk_of_wellPlaced (follows : renderer.Follows ruleSet) (placed : document.WellPlaced)
    (holds : document.Holds view) (visible : view.Visible hides)
    (shown : hides view.node.kind = false) (page : Page) :
    ∃ entered last left : Page,
      page.applyAll (enter view).strokes = (entered, none) ∧
      renderer.walkBelow view entered = .done last ∧
      last.applyAll (leave view).strokes = (left, none) ∧
      renderer.walkView view page = .done (renderer.writeGap view left) ∧
      entered.padding.levels = opened view ++ page.padding.levels ∧
      left.padding.levels = page.padding.levels := by
  obtain ⟨entered, applied, inside⟩ :=
    Page.applyAll_of_levelsAfter (levels_enter view page.padding.levels)
  obtain ⟨last, walked, kept⟩ :=
    walkBelow_of_wellPlaced follows placed holds visible shown entered
  have after : levelsAfter (leave view).strokes last.padding.levels =
      some page.padding.levels := by
    rw [kept, inside]
    exact levels_leave view page.padding.levels
  obtain ⟨left, appliedLast, levels⟩ := Page.applyAll_of_levelsAfter after
  have entering : renderer.answer view .enter page = (entered, .ok .descend) :=
    answer_of_wellPlaced follows placed holds shown applied
  have leaving : renderer.answer view .leave last = (left, .ok .descend) :=
    answer_of_wellPlaced follows placed holds shown appliedLast
  refine ⟨entered, last, left, applied, walked, appliedLast, ?_, inside, levels⟩
  obtain ⟨source, ⟨⟨payload, span, attributes, children⟩, earlier, later⟩, ancestors⟩ := view
  simp only [Renderer.walkView, View.node, Renderer.walk, entering]
  rw [show renderer.walkAll source (_ :: ancestors) [] children entered = .done last from walked,
    Walked.andThen, Renderer.depart, leaving]
  exact congrArg (fun page => Walked.done (renderer.writeGap _ page)) (Page.truncate_of_levels levels)

def itemNumber (style : ListStyle) (index : Nat) : String :=
  style.start.elim "" fun start => toString (start + index)

/-- The bullet of the items of a list, or the delimiter behind their numbers. -/
def listMark (list : Place) (style : ListStyle) : Char :=
  if style.start.isSome then style.marker else listBullet list

theorem itemMarker_eq (list : Place) (style : ListStyle) (index : Nat) :
    itemMarker list style index =
      itemNumber style index ++ String.singleton (listMark list style) ++ " " := by
  unfold itemMarker itemNumber listMark
  cases style.start <;> simp

section item

variable {list : Place} {style : ListStyle} {offset : Nat}

theorem enter_item (parent : view.parent? = some list) (inList : list.node.payload = .list style)
    (item : view.node.payload = .listItem offset) :
    enter view = .descend (openItem (itemMarker list style view.place.index) offset) := by
  simp only [enter, item, itemReply, parent, inList]

theorem leave_item (parent : view.parent? = some list) (inList : list.node.payload = .list style)
    (item : view.node.payload = .listItem offset) : leave view = .descend [.pop] := by
  simp only [leave, item, itemReply, parent, inList]

theorem itemMarker_ends (list : Place) (style : ListStyle) (index : Nat) :
    Text.endsLine (itemMarker list style index) = false := by
  simp [itemMarker_eq, Text.endsLine]

theorem applyAll_enter_item (parent : view.parent? = some list)
    (inList : list.node.payload = .list style) (item : view.node.payload = .listItem offset)
    (page : Page) :
    let marker := itemMarker list style view.place.index
    ∃ entered, page.applyAll (enter view).strokes = (entered, none) ∧
      entered.text = page.text ++ Text.repeated (offset - marker.utf8ByteSize) ' ' ++ marker ∧
      entered.padding.levels =
        Text.repeated (max offset marker.utf8ByteSize) ' ' :: page.padding.levels ∧
      entered.onNewLine = false := by
  intro marker
  let begun := (page.write (Text.repeated (offset - marker.utf8ByteSize) ' ')).write marker
  let level := Text.repeated (max offset marker.utf8ByteSize) ' '
  refine ⟨{ begun with padding := begun.padding.push level }, ?_, ?_, ?_, ?_⟩
  · rw [enter_item parent inList item]
    rfl
  · exact (Page.text_write _ marker).trans (congrArg (· ++ marker) (page.text_write _))
  · simp [begun, level, Padding.push]
  · have ended : begun.onNewLine = Text.endsLine marker :=
      Page.onNewLine_write (by simp [marker, itemMarker_eq]) _
    exact ended.trans (itemMarker_ends list style view.place.index)

theorem answer_enter_item (follows : renderer.Follows ruleSet) (parent : view.parent? = some list)
    (inList : list.node.payload = .list style) (item : view.node.payload = .listItem offset)
    (page : Page) :
    let marker := itemMarker list style view.place.index
    ∃ entered, renderer.answer view .enter page = (entered, .ok .descend) ∧
      entered.text = page.text ++ Text.repeated (offset - marker.utf8ByteSize) ' ' ++ marker ∧
      entered.padding.levels =
        Text.repeated (max offset marker.utf8ByteSize) ' ' :: page.padding.levels := by
  obtain ⟨entered, applied, text, levels, _⟩ := applyAll_enter_item parent inList item page
  have next : (enter view).next = .ok .descend := by rw [enter_item parent inList item]; rfl
  exact ⟨entered, (follows.answer_of_applyAll applied).trans (congrArg (Prod.mk entered) next), text,
    levels⟩

end item

end Markdown

end CanonicalMarkdown
