import CanonicalMarkdown.Proofs.ConversionSafety
import CanonicalMarkdown.Proofs.Markdown.ListItems
import CanonicalMarkdown.Proofs.Tree.ItemColumns
import CanonicalMarkdown.Proofs.Tree.KeptItems

namespace CanonicalMarkdown

namespace Builder

theorem top_openedItem (source : Source) (linkify : Bool) {before after : List Event} {span : Span}
    (nested : wellNested [] (before ++ ⟨.start .item, span⟩ :: after) = true)
    {container : Container} {start : Nat}
    (innermost : (openedBy before).find? (·.1.isPadded) = some (container, start)) :
    let events : List Event := before ++ [⟨.start .item, span⟩]
    let opened := (events.foldl Builder.add (ofSource source linkify)).top
    let marker := source.markerOffset span.start
    opened.span = span ∧ opened.payload = .listItem
      (source.column marker - container.contentColumn source start +
        markerWidth (source.after marker) + 1) := by
  intro events opened marker
  have sourceSame := (ofSource source linkify).source_addAll before
  obtain ⟨opens, _⟩ := (opensAt_ofSource source linkify).addAll nested
  have top : opened = (before.foldl Builder.add (ofSource source linkify)).openItem span := by
    show ((before ++ [_]).foldl Builder.add _).top = _
    rw [List.foldl_append]
    exact top_start _ .item span
  rw [top, openItem, opens.containerColumn_eq innermost, sourceSame]
  show _ ∧ Payload.listItem _ = _
  refine ⟨rfl, ?_⟩
  rw [show (ofSource source linkify).source = source from rfl, source.itemStart_eq]

end Builder

namespace Markdown

theorem answer_enter_item_iff {renderer : Renderer} (follows : renderer.Follows ruleSet) {view : View}
    {list : Place} {style : ListStyle} {offset : Nat} (parent : view.parent? = some list)
    (inList : list.node.payload = .list style) (item : view.node.payload = .listItem offset)
    (page : Page) :
    let marker := itemMarker list style view.place.index
    ∃ entered, renderer.answer view .enter page = (entered, .ok .descend) ∧
      (entered.text = page.text ++ marker ↔ offset ≤ marker.utf8ByteSize) := by
  intro marker
  obtain ⟨entered, answered, text, _⟩ := answer_enter_item follows parent inList item page
  refine ⟨entered, answered, ?_⟩
  have spaces : entered.text = page.text ++ marker ↔ offset - marker.utf8ByteSize = 0 := by
    rw [text, String.append_assoc, ← String.toList_inj]
    simp [Text.repeated, marker]
  rw [spaces]
  omega

/-- An item that its container leads to has an offset of its marker's width and one exactly if it is
    measured to be there; its rule writes no spaces exactly if the marker it writes is as wide. -/
theorem itemOffset_eq_iff (options : Options) :
    ∃ conversion, Conversion.ofOptions .markdown options = .ok conversion ∧
    ∀ (source : Source) before span after container start (opening : Opening),
      let events := before ++ ⟨.start .item, span⟩ :: after
      let marker := source.markerOffset span.start
      let width := markerWidth (source.after marker)
      wellNested [] events = true →
      (openedBy before).find? (·.1.isPadded) = some (container, start) →
      opening.LeadsTo source container start marker →
      ∃ view list style offset,
        (conversion.parse source events).Holds view ∧ view.node.span = span ∧
        view.node.payload = .listItem offset ∧ view.parent? = some list ∧
        list.node.payload = .list style ∧ width + 1 ≤ offset ∧
        (offset = width + 1 ↔ opening.IsMeasured source container start marker) ∧
        ∀ page : Page, ∃ entered,
          conversion.renderer.answer view .enter page = (entered, .ok .descend) ∧
          (entered.text = page.text ++ itemMarker list style view.place.index ↔
            offset ≤ (itemMarker list style view.place.index).utf8ByteSize) := by
  let renderer : Renderer := ⟨Markdown.table, true, options.verbosePadding⟩
  have follows : renderer.Follows ruleSet := Markdown.follows (ofProviders_provider 0)
  refine ⟨⟨.markdown, options, renderer⟩, Conversion.ofOptions_markdown options, ?_⟩
  intro source before span after container start opening events marker width nested innermost leads
  let linkify := options.reader.linkify
  obtain ⟨place, opens⟩ := Builder.top_openedItem source linkify nested innermost
  obtain ⟨view, holds, item, same⟩ := Document.holds_openedItem source linkify
    (before ++ [⟨.start .item, span⟩]) after opens place
  rw [List.append_assoc] at holds
  obtain ⟨placed, kind⟩ := Document.placed_ofEvents source linkify nested
  obtain ⟨_, list, style, _, parent, inList⟩ := list_of_wellPlaced
    (Document.wellPlaced_of_placed placed kind) holds (congrArg Payload.kind item)
  refine ⟨view, list, style, _, holds, same, item, parent, inList, ?_, ?_,
    answer_enter_item_iff follows parent inList item⟩
  · simp only [width, marker]
    omega
  · rw [← Opening.column_le_iff leads]
    simp only [width, marker]
    omega

def beforeInnerItem : List Event :=
  [⟨.start .blockQuote, ⟨0, 8⟩⟩, ⟨.start (.list (some 1)), ⟨2, 8⟩⟩, ⟨.start .item, ⟨2, 8⟩⟩,
    ⟨.start (.list none), ⟨5, 8⟩⟩]

def behindInnerItem : List Event :=
  [⟨.text "a", ⟨7, 8⟩⟩, ⟨.close, ⟨5, 8⟩⟩, ⟨.close, ⟨5, 8⟩⟩, ⟨.close, ⟨2, 8⟩⟩, ⟨.close, ⟨2, 8⟩⟩,
    ⟨.close, ⟨0, 8⟩⟩]

theorem itemOffset_eq_innerItem :
    let source : Source := .ofString "> 1. - a"
    let events := beforeInnerItem ++ ⟨.start .item, ⟨5, 8⟩⟩ :: behindInnerItem
    let opening : Opening := .item ['1', '.'] [' ']
    ∃ conversion, Conversion.ofOptions .markdown {} = .ok conversion ∧
    wellNested [] events = true ∧
    (openedBy beforeInnerItem).find? (·.1.isPadded) = some (.item, 2) ∧
    opening.LeadsTo source .item 2 5 ∧
    ∃ view list style,
      (conversion.parse source events).Holds view ∧ view.node.payload = .listItem 2 ∧
      view.parent? = some list ∧ list.node.payload = .list style ∧
      ∀ page : Page, ∃ entered,
        conversion.renderer.answer view .enter page = (entered, .ok .descend) ∧
        (entered.text = page.text ++ itemMarker list style view.place.index ↔
          2 ≤ (itemMarker list style view.place.index).utf8ByteSize) := by
  intro source events opening
  have leads : opening.LeadsTo source .item 2 5 :=
    ⟨rfl, ⟨['1'], '.', rfl, by simp, by simp⟩, ⟨by simp, by simp, by simp⟩,
      ['>', ' '], ['-'], [' ', 'a'], ⟨[], '-', rfl, by simp, by simp⟩, rfl, rfl, rfl⟩
  obtain ⟨conversion, made, offsets⟩ := itemOffset_eq_iff {}
  obtain ⟨view, list, style, offset, holds, _, item, parent, inList, _, exact_iff, written⟩ :=
    offsets source beforeInnerItem ⟨5, 8⟩ behindInnerItem .item 2 opening rfl rfl leads
  obtain rfl : offset = 2 := exact_iff.mpr (.inl (by decide))
  exact ⟨conversion, made, rfl, rfl, leads, view, list, style, holds, item, parent, inList, written⟩

def itemInDetails : List Event :=
  [⟨.start .definitionList, ⟨0, 10⟩⟩, ⟨.start .definitionTitle, ⟨0, 5⟩⟩, ⟨.text "term", ⟨0, 4⟩⟩,
    ⟨.close, ⟨0, 5⟩⟩, ⟨.start .definition, ⟨5, 10⟩⟩, ⟨.start (.list none), ⟨7, 10⟩⟩,
    ⟨.start .item, ⟨7, 10⟩⟩, ⟨.text "a", ⟨9, 10⟩⟩, ⟨.close, ⟨7, 10⟩⟩, ⟨.close, ⟨7, 10⟩⟩,
    ⟨.close, ⟨5, 10⟩⟩, ⟨.close, ⟨0, 10⟩⟩]

def paddedNumber : List Event :=
  [⟨.start .blockQuote, ⟨0, 11⟩⟩, ⟨.start (.list (some 1)), ⟨2, 11⟩⟩, ⟨.start .item, ⟨2, 11⟩⟩,
    ⟨.text "a", ⟨10, 11⟩⟩, ⟨.close, ⟨2, 11⟩⟩, ⟨.close, ⟨2, 11⟩⟩, ⟨.close, ⟨0, 11⟩⟩]

/-- The first item in a details block, and one whose number has zeros in front, are moved to the
    right, the second one so far that it reads as code. -/
theorem moved_items :
    ∃ conversion, Conversion.ofOptions .markdown {} = .ok conversion ∧
      conversion.convert (.ofString "term\n: - a") itemInDetails = .ok "term\n:   - a" ∧
      conversion.convert (.ofString "> 000001. a") paddedNumber = .ok ">      1. a" :=
  ⟨_, Conversion.ofOptions_markdown {}, rfl, rfl⟩

end Markdown

end CanonicalMarkdown
