import CanonicalMarkdown.Proofs.ConversionSafety
import CanonicalMarkdown.Proofs.Markdown.ListItems

namespace CanonicalMarkdown.Markdown

theorem isBulletList_list {node : Node} {style : ListStyle} (list : node.payload = .list style) :
    isBulletList node = style.start.isNone := by
  rw [isBulletList, list]

theorem listBullet_ne_behind {first : Node} (bullets : isBulletList first = true) (second : Node)
    (earlier later other : List Node) :
    listBullet ⟨first, earlier, other⟩ ≠ listBullet ⟨second, first :: earlier, later⟩ := by
  simp only [listBullet]
  rw [List.takeWhile_cons, if_pos bullets, List.length_cons]
  rcases Nat.mod_two_eq_zero_or_one (earlier.takeWhile isBulletList).length with even | odd
  · rw [if_pos even, if_neg (by omega)]
    decide
  · rw [if_neg (by omega), if_pos (by omega)]
    decide

theorem listMark_ne_iff {first second : Node} {a b : ListStyle} (isFirst : first.payload = .list a)
    (alike : a.start.isSome = b.start.isSome) (earlier later other : List Node) :
    listMark ⟨first, earlier, other⟩ a ≠ listMark ⟨second, first :: earlier, later⟩ b ↔
      a.start = none ∨ a.marker ≠ b.marker := by
  unfold listMark
  rw [← alike]
  cases start : a.start with
  | some number => simp
  | none =>
    have bullets : isBulletList first = true := by rw [isBulletList_list isFirst, start]; rfl
    simpa using listBullet_ne_behind bullets second earlier later other

/-- For every item of the list of the view the number of the item is written, if there is one, then
    the mark and a space. In front of them are spaces alone. -/
def MarksItems (renderer : Renderer) (view : View) (style : ListStyle) (mark : Char) : Prop :=
  ∀ item earlier later offset (page : Page), item.payload = .listItem offset →
    ∃ entered spaces,
      renderer.answer (view.child item earlier later) .enter page = (entered, .ok .descend) ∧
      entered.text = page.text ++ Text.repeated spaces ' ' ++
        (itemNumber style earlier.length ++ String.singleton mark ++ " ")

theorem marksItems_listMark {renderer : Renderer} (follows : renderer.Follows ruleSet) {view : View}
    {style : ListStyle} (list : view.node.payload = .list style) :
    MarksItems renderer view style (listMark view.place style) := by
  intro item earlier later offset page isItem
  obtain ⟨entered, answered, text, _⟩ :=
    answer_enter_item follows (view.parent?_child item earlier later) list isItem page
  rw [itemMarker_eq] at text
  exact ⟨entered, _, answered, text⟩

/-- The marks of two lists of one kind that stand next to each other, behind and in front of any
    siblings, differ exactly if the lists have bullets or the delimiters of the source differ. -/
theorem adjacentLists_differ_iff (options : Options) :
    ∃ conversion, Conversion.ofOptions .markdown options = .ok conversion ∧
    ∀ (parent : View) earlier first second later a b,
      first.payload = .list a → second.payload = .list b → a.start.isSome = b.start.isSome →
      ∃ firstMark secondMark,
        MarksItems conversion.renderer (parent.child first earlier (second :: later)) a firstMark ∧
        MarksItems conversion.renderer (parent.child second (first :: earlier) later) b secondMark ∧
        (firstMark ≠ secondMark ↔ a.start = none ∨ a.marker ≠ b.marker) := by
  obtain ⟨conversion, made, follows, _⟩ := Conversion.exists_markdown options
  refine ⟨conversion, made, ?_⟩
  intro parent earlier first second later a b isFirst isSecond alike
  exact ⟨_, _, marksItems_listMark follows isFirst, marksItems_listMark follows isSecond,
    listMark_ne_iff isFirst alike earlier later (second :: later)⟩

def plusses : ListStyle := ⟨none, '+', true, false⟩

def plusList : Node := ⟨.list plusses, ⟨0, 0⟩, {}, [.leaf (.listItem 2) ⟨0, 0⟩]⟩

def bulletRun : View :=
  ⟨⟨[]⟩, ⟨⟨.document, ⟨0, 0⟩, {}, [plusList, plusList, plusList]⟩, [], []⟩, []⟩

theorem adjacentLists_differ_bulletRun :
    ∃ conversion, Conversion.ofOptions .markdown {} = .ok conversion ∧
    plusList.payload = .list plusses ∧
    ∃ firstMark secondMark,
      MarksItems conversion.renderer (bulletRun.child plusList [plusList] [plusList]) plusses
        firstMark ∧
      MarksItems conversion.renderer (bulletRun.child plusList [plusList, plusList] []) plusses
        secondMark ∧
      firstMark ≠ secondMark := by
  obtain ⟨conversion, made, differ⟩ := adjacentLists_differ_iff {}
  obtain ⟨firstMark, secondMark, marksFirst, marksSecond, apart⟩ :=
    differ bulletRun [plusList] plusList plusList [] plusses plusses rfl rfl rfl
  exact ⟨conversion, made, rfl, firstMark, secondMark, marksFirst, marksSecond,
    apart.mpr (.inl rfl)⟩

def partedNumbers : List Event :=
  [⟨.start (.list (some 1)), ⟨0, 6⟩⟩, ⟨.start .item, ⟨0, 6⟩⟩, ⟨.text "a", ⟨3, 4⟩⟩, ⟨.close, ⟨0, 6⟩⟩,
    ⟨.close, ⟨0, 6⟩⟩, ⟨.start (.list (some 1)), ⟨15, 19⟩⟩, ⟨.start .item, ⟨15, 19⟩⟩,
    ⟨.text "b", ⟨18, 19⟩⟩, ⟨.close, ⟨15, 19⟩⟩, ⟨.close, ⟨15, 19⟩⟩]

/-- Two numbered lists with a link reference definition between them, which leaves no node, come out
    with one delimiter. -/
theorem merged_partedNumbers :
    (Document.ofEvents (.ofString "1. a\n\n[r]: /x\n\n1. b") true partedNumbers).root.children.map
      Node.kind = [.list, .list] ∧
    ∃ conversion, Conversion.ofOptions .markdown {} = .ok conversion ∧
      conversion.convert (.ofString "1. a\n\n[r]: /x\n\n1. b") partedNumbers =
        .ok "1. a\n\n1. b" :=
  ⟨rfl, _, Conversion.ofOptions_markdown {}, rfl⟩

end CanonicalMarkdown.Markdown
