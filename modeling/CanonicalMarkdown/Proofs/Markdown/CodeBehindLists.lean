import CanonicalMarkdown.Proofs.ConversionSafety
import CanonicalMarkdown.Proofs.PageGrowth
import CanonicalMarkdown.Proofs.Markdown.ListItems
import CanonicalMarkdown.Proofs.Tree.ItemColumns

namespace CanonicalMarkdown

theorem Page.text_writeGap (page : Page) (gap : Gap) :
    ∃ before : Page, (page.writeGap gap).text =
        before.text ++ "\n" ++ String.join before.padding.line ∧
      before.padding.levels = page.padding.levels := by
  have broken (before : Page) : (before.write "\n").writePadding.text =
      before.text ++ "\n" ++ String.join before.padding.line := by
    have padded := (before.write "\n").text_writeAll (before.write "\n").padding.line
    rw [before.padding_write, before.text_write] at padded
    exact padded
  refine ⟨_, broken _, ?_⟩
  split <;> split <;> simp

namespace Markdown

variable {renderer : Renderer} {document : Document} {view : View}

theorem walk_list (follows : renderer.Follows ruleSet) (separators : renderer.separators = true)
    (placed : document.WellPlaced) (holds : document.Holds view) (visible : view.Visible hides)
    (list : view.node.kind = .list) (followed : view.place.later ≠ []) (page : Page) :
    ∃ shown before : Page, renderer.walkView view page = .done shown ∧
      shown.text = before.text ++ "\n" ++ String.join before.padding.line ∧
      before.padding.levels = page.padding.levels := by
  obtain ⟨_, _, left, _, _, _, walked, _, levels⟩ :=
    walk_of_wellPlaced follows placed holds visible (by rw [list]; rfl) page
  obtain ⟨gap, written⟩ := renderer.writeGap_of_followed separators (by rw [list]; rfl) followed
  obtain ⟨before, text, same⟩ := left.text_writeGap gap
  exact ⟨_, before, walked, (congrArg Page.text (written left)).trans text, same.trans levels⟩

theorem answer_enter_codeBlock (follows : renderer.Follows ruleSet) {first : String}
    {rest : List String} (code : view.node.payload = .codeBlock (first :: rest)) {char : Char}
    (starts : first.toList.head? = some char) (noSpace : char ≠ ' ') (noBreak : char ≠ '\n')
    (page : Page) :
    ∃ entered more, renderer.answer view .enter page = (entered, .ok .skipChildren) ∧
      entered.text = page.text ++ more ∧ leadingSpaces more.toList = 4 := by
  have notBlank : first ≠ "\n" := by
    rintro rfl
    exact noBreak (Option.some.inj starts).symm
  have asked : enter view = .skip (indentedCode (first :: rest)) := by simp only [enter, code]
  obtain ⟨entered, applied, _⟩ := Page.applyAll_of_levelsAfter
    (keepsLevels_indentedCode (first :: rest) page.padding.levels)
  have answered : renderer.answer view .enter page = (entered, .ok .skipChildren) := by
    rw [follows, show ruleSet.reply view .enter = _ from asked, Page.answer]
    simp only [Reply.skip, applied]
  obtain ⟨others, split⟩ : ∃ others,
      indentedCode (first :: rest) = .text "    " :: .text first :: others :=
    ⟨_, by rw [indentedCode, indentedLine, if_neg notBlank]; rfl⟩
  have grows := ((page.write "    ").write first).grows_applyAll others
  rw [split] at applied
  rw [show (((page.write "    ").write first).applyAll others).1 = entered from
    congrArg Prod.fst applied] at grows
  obtain ⟨more, text⟩ := grows.text
  refine ⟨entered, "    " ++ first ++ more, answered, ?_, ?_⟩
  · rw [text, Page.text_write, Page.text_write, String.append_assoc, String.append_assoc,
      String.append_assoc]
  · have four : ("    " ++ first ++ more).toList =
        List.replicate 4 ' ' ++ (first.toList ++ more.toList) := by simp
    rw [four]
    refine leadingSpaces_append ?_ 4
    rw [List.head?_append, starts, Option.some_or]
    exact fun space => noSpace (Option.some.inj space)

/-- Indented code behind a list starts on a line of its own, four columns behind the padding around
    both; the level of the last item is wider exactly if its offset or its marker is. -/
theorem codeBehindList_column_iff (options : Options) :
    ∃ conversion, Conversion.ofOptions .markdown options = .ok conversion ∧
    ∀ (document : Document) (parent : View) before list items last code after style offset first rest
      char (page : Page),
      document.WellPlaced → document.Holds parent → parent.Visible hides →
      hides parent.node.kind = false →
      parent.node.children = before ++ list :: code :: after →
      list.payload = .list style → list.children = items ++ [last] →
      last.payload = .listItem offset → code.payload = .codeBlock (first :: rest) →
      first.toList.head? = some char → char ≠ ' ' → char ≠ '\n' →
      let listView := parent.child list before.reverse (code :: after)
      let lastView := listView.child last items.reverse []
      let codeView := parent.child code (list :: before.reverse) after
      ∃ (shown gap entered : Page) (more : String) (width : Nat),
        conversion.renderer.walkView listView page = .done shown ∧
        shown.text = gap.text ++ "\n" ++ String.join gap.padding.line ∧
        gap.padding.levels = page.padding.levels ∧
        conversion.renderer.answer codeView .enter shown = (entered, .ok .skipChildren) ∧
        entered.text = shown.text ++ more ∧
        (∀ before, ∃ inside,
          conversion.renderer.answer lastView .enter before = (inside, .ok .descend) ∧
          inside.padding.levels = Text.repeated width ' ' :: before.padding.levels) ∧
        (leadingSpaces more.toList < width ↔
          4 < offset ∨ 4 < (itemMarker listView.place style items.length).utf8ByteSize) := by
  obtain ⟨conversion, made, follows, separators⟩ := Conversion.exists_markdown options
  refine ⟨conversion, made, ?_⟩
  intro document parent before list items last code after style offset first rest char page placed
    holds visible shownParent children isList childrenList isItem isCode starts noSpace
    noBreak listView lastView codeView
  have holdsList : document.Holds listView := holds.down (by simpa using children)
  have visibleList : listView.Visible hides := visible.down shownParent list _ _
  have kind : listView.node.kind = .list := congrArg Payload.kind isList
  obtain ⟨shown, gap, walked, text, levels⟩ :=
    walk_list follows separators placed holdsList visibleList kind (List.cons_ne_nil code after) page
  obtain ⟨entered, more, answered, textMore, four⟩ :=
    answer_enter_codeBlock follows (show codeView.node.payload = _ from isCode) starts noSpace
      noBreak shown
  refine ⟨shown, gap, entered, more,
    max offset (itemMarker listView.place style items.length).utf8ByteSize, walked, text, levels,
    answered, textMore, fun begun => ?_, ?_⟩
  · obtain ⟨inside, answeredLast, _, level⟩ := answer_enter_item follows
      (listView.parent?_child last items.reverse []) isList
      (show lastView.node.payload = _ from isItem) begun
    rw [show lastView.place.index = items.length from List.length_reverse] at level
    exact ⟨inside, answeredLast, level⟩
  · rw [four]
    omega

def deepItem : Node := ⟨.listItem 5, ⟨3, 10⟩, {}, []⟩

def deepList : Node := ⟨.list ⟨none, '-', true, false⟩, ⟨3, 10⟩, {}, [deepItem]⟩

def shallowCode : Node := .leaf (.codeBlock ["two\n"]) ⟨14, 17⟩

def codeBehindDeepItem : Document := ⟨⟨[]⟩, ⟨.document, ⟨0, 17⟩, {}, [deepList, shallowCode]⟩⟩

theorem codeBehindList_column_deepItem :
    let parent : View := ⟨⟨[]⟩, ⟨codeBehindDeepItem.root, [], []⟩, []⟩
    ∃ conversion, Conversion.ofOptions .markdown {} = .ok conversion ∧
    codeBehindDeepItem.WellPlaced ∧ codeBehindDeepItem.Holds parent ∧ parent.Visible hides ∧
    ∃ (shown gap entered : Page) (more : String) (width : Nat),
      conversion.renderer.walkView (parent.child deepList [] [shallowCode]) {} = .done shown ∧
      shown.text = gap.text ++ "\n" ++ String.join gap.padding.line ∧ gap.padding.levels = [] ∧
      conversion.renderer.answer (parent.child shallowCode [deepList] []) .enter shown =
        (entered, .ok .skipChildren) ∧
      entered.text = shown.text ++ more ∧
      (∀ before, ∃ inside,
        conversion.renderer.answer ((parent.child deepList [] [shallowCode]).child deepItem [] [])
          .enter before = (inside, .ok .descend) ∧
        inside.padding.levels = Text.repeated width ' ' :: before.padding.levels) ∧
      leadingSpaces more.toList < width := by
  intro parent
  have placed : codeBehindDeepItem.WellPlaced := by
    refine Document.wellPlaced_of_placed ?_ rfl
    have placedList : deepList.Placed :=
      Node.placed_iff.mpr (.singleton rfl (Node.placed_iff.mpr .nil))
    exact Node.placed_iff.mpr
      (.cons rfl placedList (.singleton rfl (Node.placed_iff.mpr .nil)))
  have visible : parent.Visible hides := fun ancestor member => by contradiction
  obtain ⟨conversion, made, column⟩ := codeBehindList_column_iff {}
  obtain ⟨shown, gap, entered, more, width, walked, text, levels, answered, textMore, opens, less⟩ :=
    column codeBehindDeepItem parent [] deepList [] deepItem shallowCode [] _ 5 "two\n" [] 't' {}
      placed .root visible rfl rfl rfl rfl rfl rfl rfl (by decide) (by decide)
  exact ⟨conversion, made, placed, .root, visible, shown, gap, entered, more, width, walked, text,
    levels, answered, textMore, opens, less.mpr (.inl (by decide))⟩

def codeBehindWideSpace : List Event :=
  [⟨.start (.list none), ⟨0, 10⟩⟩, ⟨.start .item, ⟨0, 10⟩⟩, ⟨.text "one", ⟨5, 8⟩⟩,
    ⟨.close, ⟨0, 10⟩⟩, ⟨.close, ⟨0, 10⟩⟩, ⟨.start .indentedCode, ⟨14, 17⟩⟩, ⟨.text "two", ⟨14, 17⟩⟩,
    ⟨.close, ⟨14, 17⟩⟩]

/-- Behind an item with four spaces after its bullet, code comes out within the width of the item. -/
theorem swallowed_codeBehindWideSpace :
    (Document.ofEvents (.ofString "-    one\n\n    two") true codeBehindWideSpace).root.children.map
      Node.kind = [.list, .codeBlock] ∧
    ∃ conversion, Conversion.ofOptions .markdown {} = .ok conversion ∧
      conversion.convert (.ofString "-    one\n\n    two") codeBehindWideSpace =
        .ok "- one\n\n    two\n" :=
  ⟨rfl, _, Conversion.ofOptions_markdown {}, rfl⟩

end Markdown

end CanonicalMarkdown
