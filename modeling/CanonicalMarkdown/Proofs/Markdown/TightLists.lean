import CanonicalMarkdown.Proofs.Markdown.Containers
import CanonicalMarkdown.Proofs.PageGrowth

namespace CanonicalMarkdown

namespace Page.Steady

variable {line : LineState} {page : Page}

theorem indented (steady : page.Steady line) : Indented [] [] line page page where
  steadyAlone := steady
  steadyInside := steady
  levels := (List.append_nil _).symm
  written := ⟨page.text.toList, rfl, by
    rw [List.reverse_nil, String.join_nil, String.toList_empty, Text.indent_nothing]
    exact .refl _⟩

theorem onNewLine_iff (steady : page.Steady line) (padded : page.padding.text ≠ "") :
    page.onNewLine = true ↔ line = .ended := by
  cases line with
  | begun => exact ⟨fun onNewLine => absurd (steady.place onNewLine) padded, fun same => by cases same⟩
  | ended => exact ⟨fun _ => rfl, fun _ => steady.place⟩

end Page.Steady

def Padding.nextLine (padding : Padding) : LineState → List Char
  | .begun => '\n' :: padding.text.toList
  | .ended => Unicode.trimEnd padding.text.toList ++ '\n' :: padding.text.toList

theorem Padding.nextLine_of_levels {padding other : Padding} (same : padding.levels = other.levels)
    (line : LineState) : padding.nextLine line = other.nextLine line := by
  have text : padding.text = other.text := by rw [Padding.text, Padding.text, same]
  unfold nextLine
  rw [text]

theorem Page.Steady.writeGap_newline {line : LineState} {page : Page} (steady : page.Steady line) :
    (page.writeGap .newline).text.toList = page.text.toList ++ page.padding.nextLine line := by
  unfold Page.writeGap
  cases line with
  | begun =>
    have ended : (page.write "\n").Steady .ended :=
      steady.write_endLine (show "\n".toList = [] ++ ['\n'] from rfl)
    rw [steady.skipBlankPadding]
    simp [ended.text_writePadding, Page.text_write, Padding.nextLine]
  | ended =>
    have onNewLine : page.onNewLine = true := steady.place
    rw [if_pos onNewLine]
    simp [steady.blankLine.text_writePadding, Page.text_write, steady.text_writeBlankPadding,
      steady.writeBlankPadding, Padding.nextLine]

namespace Markdown

/-- An item of a tight list, or a block of such an item. -/
def standsTight (node : Node) (ancestors : List Place) : Bool :=
  (node.kind = .listItem && ancestors.head?.any (·.node.isTightList))
    || (node.kind.isBlock && inTightItem ancestors)

variable {renderer : Renderer} {source : Source} {ancestors : List Place} {page : Page}

theorem writeGap_of_standsTight (separators : renderer.separators = true) {node : Node}
    (tight : standsTight node ancestors = true) (earlier : List Node) (next : Node)
    (later : List Node) (page : Page) :
    renderer.writeGap ⟨source, ⟨node, earlier, next :: later⟩, ancestors⟩ page =
      page.writeGap .newline := by
  simp only [standsTight, Bool.or_eq_true, Bool.and_eq_true] at tight
  have block : node.kind.isBlock = true := by
    rcases tight with ⟨item, _⟩ | ⟨block, _⟩
    · rw [of_decide_eq_true item]
      rfl
    · exact block
  have gap : Gap.between node (ancestors.head?.map (·.node)) (ancestors[1]?.map (·.node)) next =
      .newline := by
    rw [between_eq]
    rcases tight with ⟨item, inTight⟩ | ⟨_, inItem⟩
    · simp [item, inTight]
    · simp [inItem]
  simp only [Renderer.writeGap, Place.next?, List.head?_cons, View.node, separators, block, gap]
  rfl

theorem walk_steady (follows : renderer.Follows ruleSet) (separators : renderer.separators = true)
    (ancestors : List Place) (earlier later : List Node) {node : Node}
    (shaped : isShaped source (ancestors.head?.map (·.node.payload)) node = true)
    (steady : page.Steady .begun) :
    ∃ left, renderer.walk source ancestors earlier later node page =
        .done (renderer.writeGap ⟨source, ⟨node, earlier, later⟩, ancestors⟩ left) ∧
      left.padding.levels = page.padding.levels ∧ left.Steady (lineAfter node) := by
  obtain ⟨left, _, walked, _, levels, pages⟩ :=
    walk_indented follows separators (.refl ancestors) earlier later node shaped steady.indented
  exact ⟨left, walked, levels, pages.steadyAlone⟩

theorem walkAll_steady (follows : renderer.Follows ruleSet) (separators : renderer.separators = true)
    (ancestors : List Place) (earlier : List Node) {nodes : List Node}
    (shaped : areShaped source (ancestors.head?.map (·.node.payload)) nodes = true)
    (steady : page.Steady .begun) :
    ∃ last, renderer.walkAll source ancestors earlier nodes page = .done last ∧
      last.padding.levels = page.padding.levels ∧ last.Steady (lineAfterAll nodes) := by
  obtain ⟨last, _, walked, _, levels, pages⟩ :=
    walkAll_indented follows separators (.refl ancestors) earlier nodes shaped steady.indented
  exact ⟨last, walked, levels, pages.steadyAlone⟩

theorem itemLevels_of_list (source : Source) {list : Place} {style : ListStyle}
    (payload : list.node.payload = .list style) (ancestors : List Place) (place : Place)
    (offset : Nat) :
    ∃ level, level ≠ "" ∧ itemLevels ⟨source, place, list :: ancestors⟩ offset = [level] := by
  let width := (itemMarker list style place.index).utf8ByteSize
  have wide : width ≠ 0 := by
    simpa [width] using itemMarker_ne_empty list style place.index
  refine ⟨Text.repeated (max offset width) ' ', ?_, ?_⟩
  · intro empty
    have none : List.replicate (max offset width) ' ' = [] := by simpa [Text.repeated] using empty
    have nothing : max offset width = 0 := by simpa using none
    omega
  · simp only [itemLevels, View.parent?, List.head?_cons, payload]
    rfl

theorem answer_leave_item (follows : renderer.Follows ruleSet) {list place : Place}
    {style : ListStyle} (inList : list.node.payload = .list style) {offset : Nat}
    (item : place.node.payload = .listItem offset) (source : Source) (ancestors : List Place)
    {level : String} {levels : List String} (inside : page.padding.levels = level :: levels) :
    renderer.answer ⟨source, place, list :: ancestors⟩ .leave page =
      ({ page with padding := { page.padding with levels } }, .ok .descend) := by
  have left : reply ⟨source, place, list :: ancestors⟩ .leave = .descend [.pop] := by
    simp only [reply, leave, View.node, item, itemReply, View.parent?, List.head?_cons, inList]
  rw [follows]
  show page.answer (reply _ .leave) = _
  rw [left]
  simp only [Page.answer, Reply.descend, Page.applyAll, Page.apply, Padding.pop, inside]
  rfl

theorem walk_item (follows : renderer.Follows ruleSet) (separators : renderer.separators = true)
    (list : Place) (ancestors : List Place) (earlier later : List Node) {node : Node}
    (item : node.kind = .listItem) (shaped : isShaped source (some list.node.payload) node = true)
    (steady : page.Steady .begun) :
    ∃ left, renderer.walk source (list :: ancestors) earlier later node page =
        .done (renderer.writeGap ⟨source, ⟨node, earlier, later⟩, list :: ancestors⟩ left) ∧
      left.padding.levels = page.padding.levels ∧ left.Steady (lineAfter node) ∧
      (left.onNewLine = true ↔ lineAfter node = .ended) := by
  obtain ⟨payload, span, attributes, children⟩ := node
  obtain ⟨offset, rfl⟩ : ∃ offset, payload = .listItem offset := by
    cases payload <;> first | exact ⟨_, rfl⟩ | contradiction
  let place : Place := ⟨⟨.listItem offset, span, attributes, children⟩, earlier, later⟩
  obtain ⟨fits, _, _, below⟩ := isShaped_iff.mp shaped
  have shown : areShaped source (some (.listItem offset)) children = true := by
    rcases below with hidden | shown
    · contradiction
    · exact shown
  obtain ⟨style, parent, _⟩ := Payload.list_of_fitsIn fits
  have inList := Option.some.inj parent
  obtain ⟨level, some, opened⟩ := itemLevels_of_list source inList ancestors place offset
  obtain ⟨entered, _, entering, _, levels, pages⟩ :=
    @enter_indented renderer [] [] source (list :: ancestors) (list :: ancestors) follows
      (.refl _) place shaped page page steady.indented
  obtain ⟨between, walked, same, steadyBetween⟩ :=
    walkAll_steady follows separators (place :: list :: ancestors) [] shown pages.steadyAlone
  have inside : between.padding.levels = level :: page.padding.levels := by
    rw [same, levels]
    exact congrArg (· ++ page.padding.levels) opened
  have padded : between.padding.text ≠ "" := by
    simp [Padding.text, inside, String.join_append, some]
  have entering : renderer.answer ⟨source, place, list :: ancestors⟩ .enter page =
      (entered, .ok .descend) := entering
  have leaving := answer_leave_item follows inList (rfl : place.node.payload = .listItem offset)
    source ancestors inside
  have line : lineAfter ⟨.listItem offset, span, attributes, children⟩ = lineAfterAll children :=
    lineAfter_of_holdsBlocks rfl
  let left : Page := { between with padding := { between.padding with levels := page.padding.levels } }
  -- the level of the item is closed only behind its last block, and closing it writes nothing
  have ends : between.onNewLine = true ↔ lineAfterAll children = .ended :=
    steadyBetween.onNewLine_iff padded
  have kept : left.truncate page.padding.depth = left := Page.truncate_of_levels rfl
  rw [line]
  refine ⟨left, ?_, rfl, steadyBetween.pop inside, ends⟩
  rw [Renderer.walk]
  simp only [place] at entering walked leaving
  simp only [left] at kept
  simp only [entering, walked, Walked.andThen, Renderer.depart, leaving, kept, left]

/-- What stands in a tight list, on a page that has padding inside of items, is followed by a gap
    without a blank line. -/
theorem walk_standsTight (follows : renderer.Follows ruleSet)
    (separators : renderer.separators = true) (parent : Place) (ancestors : List Place)
    (earlier : List Node) {node : Node} (next : Node) (later : List Node)
    (tight : standsTight node (parent :: ancestors) = true)
    (shaped : isShaped source (some parent.node.payload) node = true)
    (steady : page.Steady .begun)
    (padded : inTightItem (parent :: ancestors) = true → page.padding.text ≠ "") :
    ∃ left : Page, renderer.walk source (parent :: ancestors) earlier (next :: later) node page =
        .done (left.writeGap .newline) ∧
      left.padding.levels = page.padding.levels ∧ left.Steady (lineAfter node) ∧
      (left.onNewLine = true ↔ lineAfter node = .ended) := by
  have gap := @writeGap_of_standsTight renderer source (parent :: ancestors) separators node tight
    earlier next later
  -- a list outside of all containers has no padding of its own, so an item needs the level it opens
  by_cases inItem : inTightItem (parent :: ancestors) = true
  · obtain ⟨left, walked, levels, steadyLeft⟩ :=
      walk_steady follows separators (parent :: ancestors) earlier (next :: later) shaped steady
    have paddedLeft : left.padding.text ≠ "" := by
      rw [Padding.text, levels]
      exact padded inItem
    rw [gap] at walked
    exact ⟨left, walked, levels, steadyLeft, steadyLeft.onNewLine_iff paddedLeft⟩
  · have item : node.kind = .listItem := by
      simp only [standsTight, inItem, Bool.and_false, Bool.or_false, Bool.and_eq_true] at tight
      exact of_decide_eq_true tight.1
    obtain ⟨left, walked, rest⟩ :=
      walk_item follows separators parent ancestors earlier (next :: later) item shaped steady
    rw [gap] at walked
    exact ⟨left, walked, rest⟩

theorem walkAll_reaches (follows : renderer.Follows ruleSet)
    (separators : renderer.separators = true) (ancestors : List Place) {rest : List Node}
    (some : rest ≠ []) {before : List Node}
    (shaped : areShaped source (ancestors.head?.map (·.node.payload)) before = true)
    (steady : page.Steady .begun) (earlier : List Node) :
    ∃ reached, renderer.walkAll source ancestors earlier (before ++ rest) page =
        renderer.walkAll source ancestors (before.reverse ++ earlier) rest reached ∧
      reached.padding.levels = page.padding.levels ∧ reached.Steady .begun := by
  induction before generalizing earlier page with
  | nil => exact ⟨page, rfl, rfl, steady⟩
  | cons node before ih =>
    obtain ⟨first, more⟩ := areShaped_cons.mp shaped
    obtain ⟨left, walked, levels, steadyLeft⟩ :=
      walk_steady follows separators ancestors earlier (before ++ rest) first steady
    have gap := @writeGap_indented renderer [] [] source ancestors ancestors separators (.refl _)
      ⟨node, earlier, before ++ rest⟩ left left steadyLeft.indented
    have followed : (before ++ rest).isEmpty = false := by simp [some]
    simp only [followed] at gap
    obtain ⟨reached, walkedAll, levelsAll, steadyReached⟩ := ih more gap.steadyAlone (node :: earlier)
    refine ⟨reached, ?_, ?_, steadyReached⟩
    · rw [List.cons_append, Renderer.walkAll, walked, List.reverse_cons, List.append_assoc]
      exact walkedAll
    · rw [levelsAll, renderer.levels_writeGap, levels]

/-- In a tight list an item, or a block of an item, starts on the line after the one before it ends;
    if that one ended its line itself, an empty line stands between. -/
theorem tightList_lines (options : Options) :
    ∃ conversion, Conversion.ofOptions .markdown options = .ok conversion ∧
    ∀ source (parent : Place) ancestors before node next after (page : Page),
      standsTight node (parent :: ancestors) = true →
      areShaped source (some parent.node.payload) (before ++ node :: next :: after) = true →
      page.Steady .begun → "" ∉ page.pieces →
      (inTightItem (parent :: ancestors) = true → page.padding.text ≠ "") →
      ∃ final behind written rest,
        conversion.renderer.walkAll source (parent :: ancestors) []
          (before ++ node :: next :: after) page = .done final ∧
        conversion.renderer.walkAll source (parent :: ancestors) (node :: before.reverse)
          (next :: after) behind = .done final ∧
        behind.padding.levels = page.padding.levels ∧
        behind.text.toList = written ++ page.padding.nextLine (lineAfter node) ∧
        (written.getLast? = some '\n' ↔ lineAfter node = .ended) ∧
        final.text = behind.text ++ rest := by
  let renderer : Renderer := ⟨Markdown.table, true, options.verbosePadding⟩
  have follows : renderer.Follows ruleSet := Markdown.follows (ofProviders_provider 0)
  refine ⟨⟨.markdown, options, renderer⟩, Conversion.ofOptions_markdown options, ?_⟩
  intro source parent ancestors before node next after page tight shaped steady filled padded
  obtain ⟨final, walked, _, _⟩ :=
    walkAll_steady follows rfl (parent :: ancestors) [] shaped steady
  obtain ⟨shapedBefore, shapedRest⟩ := areShaped_append.mp shaped
  obtain ⟨shapedNode, _⟩ := areShaped_cons.mp shapedRest
  obtain ⟨reached, walkedBefore, levels, steadyReached⟩ :=
    walkAll_reaches follows rfl (parent :: ancestors) (List.cons_ne_nil node (next :: after))
      shapedBefore steady []
  have text : reached.padding.text = page.padding.text := by
    rw [Padding.text, Padding.text, levels]
  obtain ⟨left, walkedNode, levelsLeft, steadyLeft, ends⟩ :=
    walk_standsTight follows rfl parent ancestors (before.reverse ++ []) next after tight shapedNode
      steadyReached fun inItem => text ▸ padded inItem
  have walkedRest : renderer.walkAll source (parent :: ancestors) (node :: before.reverse)
      (next :: after) (left.writeGap .newline) = .done final := by
    rw [walkedBefore, Renderer.walkAll, walkedNode, List.append_nil] at walked
    exact walked
  have whole : page.Grows final := by
    have grows := Renderer.grows_walkAll follows source (parent :: ancestors) []
      (before ++ node :: next :: after) page
    rwa [walked] at grows
  have rest : (left.writeGap .newline).Grows final := by
    have grows := Renderer.grows_walkAll follows source (parent :: ancestors) (node :: before.reverse)
      (next :: after) (left.writeGap .newline)
    rwa [walkedRest] at grows
  -- no piece of the whole is empty, so none is on the page that the gap was written on
  have filledLeft : "" ∉ left.pieces := by
    rw [← (left.grows_writeGap .newline).filled_iff, ← rest.filled_iff]
    exact whole.filled_iff.mpr filled
  obtain ⟨more, text⟩ := rest.text
  refine ⟨final, left.writeGap .newline, left.text.toList, more, walked, walkedRest, ?_, ?_, ?_, text⟩
  · rw [Page.levels_writeGap, levelsLeft, levels]
  · rw [steadyLeft.writeGap_newline, Padding.nextLine_of_levels (levelsLeft.trans levels)]
  · rw [← ends, Page.onNewLine_eq_endsLine filledLeft, Text.endsLine, decide_eq_true_eq]

def wordBlock (word : String) : Node := ⟨.paragraph, ⟨0, 0⟩, {}, [.leaf (.string word) ⟨0, 0⟩]⟩

def thematicBreak : Node := .leaf .thematicBreak ⟨0, 0⟩

def ruledItem : Place :=
  ⟨⟨.listItem 2, ⟨0, 0⟩, {}, [wordBlock "a", thematicBreak, wordBlock "b"]⟩, [], []⟩

def ruledList : Place := ⟨⟨.list ⟨none, '-', true, false⟩, ⟨0, 0⟩, {}, [ruledItem.node]⟩, [], []⟩

theorem tightList_lines_ruledItem :
    ∃ conversion, Conversion.ofOptions .markdown {} = .ok conversion ∧
    standsTight thematicBreak [ruledItem, ruledList] = true ∧
    areShaped ⟨[]⟩ (some (.listItem 2)) [wordBlock "a", thematicBreak, wordBlock "b"] = true ∧
    Page.Steady .begun ⟨["- "], { levels := ["  "] }⟩ ∧
    ∃ final behind written rest,
      conversion.renderer.walkAll ⟨[]⟩ [ruledItem, ruledList] []
        [wordBlock "a", thematicBreak, wordBlock "b"] ⟨["- "], { levels := ["  "] }⟩ =
        .done final ∧
      conversion.renderer.walkAll ⟨[]⟩ [ruledItem, ruledList] [thematicBreak, wordBlock "a"]
        [wordBlock "b"] behind = .done final ∧
      behind.padding.levels = ["  "] ∧
      behind.text.toList = written ++ "\n  ".toList ∧ written.getLast? = some '\n' ∧
      final.text = behind.text ++ rest := by
  obtain ⟨conversion, made, lines⟩ := tightList_lines {}
  have steady : Page.Steady .begun ⟨["- "], { levels := ["  "] }⟩ :=
    ⟨fun onNewLine => by contradiction, by decide, rfl⟩
  obtain ⟨final, behind, written, rest, walked, walkedRest, levels, text, ends, grown⟩ :=
    lines ⟨[]⟩ ruledItem [ruledList] [wordBlock "a"] thematicBreak (wordBlock "b") []
      ⟨["- "], { levels := ["  "] }⟩ rfl rfl steady (by decide) (fun _ => by decide)
  exact ⟨conversion, made, rfl, rfl, steady, final, behind, written, rest, walked, walkedRest, levels,
    text, ends.mpr rfl, grown⟩

def ruledLines : List Event :=
  [⟨.start (.list none), ⟨0, 13⟩⟩, ⟨.start .item, ⟨0, 13⟩⟩, ⟨.text "a", ⟨2, 3⟩⟩, ⟨.rule, ⟨6, 10⟩⟩,
    ⟨.text "b", ⟨12, 13⟩⟩, ⟨.close, ⟨0, 13⟩⟩, ⟨.close, ⟨0, 13⟩⟩]

/-- A thematic break in a tight list has an empty line behind it. -/
theorem parted_behind_ruledLines :
    (Document.ofEvents (.ofString "- a\n  ***\n  b") true ruledLines).root.children.map
      Node.isTightList = [true] ∧
    ∃ conversion, Conversion.ofOptions .markdown {} = .ok conversion ∧
      conversion.convert (.ofString "- a\n  ***\n  b") ruledLines = .ok "- a\n  ***\n\n  b" :=
  ⟨rfl, _, Conversion.ofOptions_markdown {}, rfl⟩

end Markdown

end CanonicalMarkdown
