import CanonicalMarkdown.Proofs.ConversionSafety
import CanonicalMarkdown.Proofs.PageGrowth
import CanonicalMarkdown.Proofs.Markdown.ListItems
import CanonicalMarkdown.Proofs.Markdown.TidyRules
import CanonicalMarkdown.Text.Lines

namespace CanonicalMarkdown

open Text (firstLine)

namespace Page

theorem Grows.toList {page next : Page} (grows : page.Grows next) :
    ∃ more, next.text.toList = page.text.toList ++ more := by
  obtain ⟨more, text⟩ := grows.text
  exact ⟨more.toList, by rw [text, String.toList_append]⟩

theorem Grows.midLine {page next : Page} (grows : page.Grows next)
    (midLine : page.onNewLine = false) {more : List Char}
    (text : next.text.toList = page.text.toList ++ more) (oneLine : '\n' ∉ more) :
    next.onNewLine = false := by
  obtain ⟨pieces, grown, _⟩ := grows
  cases pieces with
  | nil => rwa [onNewLine, grown]
  | cons last others =>
    have added : more = (String.join others.reverse).toList ++ last.toList := by
      simpa [Page.text, grown, String.join_append] using text.symm
    rw [onNewLine, grown, List.cons_append, List.head?_cons, Option.any_some, Text.endsLine,
      decide_eq_false_iff_not]
    intro newline
    refine oneLine ?_
    rw [added]
    exact List.mem_append_right _ (List.mem_of_getLast? newline)

/-- The last page has more than the first one, and the first one more than the start, but the line
    that the start ends in is as long on the first as on the last. -/
def KeepsLine (start first last : Page) : Prop :=
  ∃ some more, first.text.toList = start.text.toList ++ some ∧
    last.text.toList = first.text.toList ++ more ∧ firstLine (some ++ more) = firstLine some

namespace KeepsLine

variable {start first last : Page}

theorem refl (grows : start.Grows first) : KeepsLine start first first := by
  obtain ⟨some, text⟩ := grows.toList
  exact ⟨some, [], text, by simp, by simp⟩

theorem trans {next : Page} (before : KeepsLine start first next)
    (behind : KeepsLine start next last) : KeepsLine start first last := by
  obtain ⟨some, more, textFirst, textNext, kept⟩ := before
  obtain ⟨both, rest, textBoth, textLast, keptAgain⟩ := behind
  have joined : both = some ++ more := by
    rw [textFirst, List.append_assoc] at textNext
    exact List.append_cancel_left (textBoth.symm.trans textNext)
  refine ⟨some, more ++ rest, textFirst, by rw [textLast, textNext, List.append_assoc], ?_⟩
  rw [← List.append_assoc, ← joined, keptAgain, joined, kept]

theorem ofNewline {some : List Char} (text : first.text.toList = start.text.toList ++ some)
    (ended : '\n' ∈ some) (grows : first.Grows last) : KeepsLine start first last := by
  obtain ⟨more, grown⟩ := grows.toList
  exact ⟨some, more, text, grown, Text.firstLine_append_of_mem ended more⟩

end KeepsLine

theorem toList_writeGap (page : Page) (gap : Gap) :
    ∃ more, (page.writeGap gap).text.toList = page.text.toList ++ more ∧ '\n' ∈ more ∧
      (page.onNewLine = false → firstLine more = []) := by
  have broken (page : Page) : ∃ rest,
      (page.write "\n").writePadding.text.toList = page.text.toList ++ '\n' :: rest := by
    obtain ⟨rest, text⟩ := (page.write "\n").grows_writePadding.toList
    exact ⟨rest, by simp [text, text_write]⟩
  have parted (page : Page) : ∃ rest,
      ((page.write "\n").writeBlankPadding.write "\n").writePadding.text.toList =
        page.text.toList ++ '\n' :: rest := by
    obtain ⟨rest, text⟩ := ((page.write "\n").grows_writeBlankPadding.trans
      ((grows_write _ "\n").trans (grows_writePadding _))).toList
    exact ⟨rest, by simp [text, text_write]⟩
  have begun (page : Page) : ∃ rest,
      ((if gap = .blankLine then (page.write "\n").writeBlankPadding else page).write
        "\n").writePadding.text.toList = page.text.toList ++ '\n' :: rest := by
    split
    · exact parted page
    · exact broken page
  unfold Page.writeGap
  cases onNewLine : page.onNewLine with
  | false =>
    obtain ⟨rest, text⟩ := begun page
    exact ⟨_, text, by simp, fun _ => rfl⟩
  | true =>
    obtain ⟨padding, padded⟩ := page.grows_writeBlankPadding.toList
    obtain ⟨rest, text⟩ := begun page.writeBlankPadding
    refine ⟨padding ++ '\n' :: rest, ?_, by simp, fun midLine => by contradiction⟩
    rw [← List.append_assoc, ← padded]
    exact text

end Page

namespace Renderer

variable {renderer : Renderer} {view : View}

theorem grows_of_walkView {rules : RuleSet} (follows : renderer.Follows rules) {page left : Page}
    (walked : renderer.walkView view page = .done left) : page.Grows left := by
  have grows : page.Grows (renderer.walkView view page).page := grows_walk follows ..
  rwa [walked] at grows

theorem grows_of_walkBelow {rules : RuleSet} (follows : renderer.Follows rules) {page last : Page}
    (walked : renderer.walkBelow view page = .done last) : page.Grows last := by
  have grows : page.Grows (renderer.walkBelow view page).page := grows_walkAll follows ..
  rwa [walked] at grows

theorem keepsLine_writeGap (renderer : Renderer) (view : View) {start page : Page} (grows : start.Grows page)
    (midLine : start.onNewLine = false) : start.KeepsLine page (renderer.writeGap view page) := by
  obtain ⟨some, text⟩ := grows.toList
  unfold writeGap
  split
  · exact .refl grows
  · split
    · rename_i next _ _
      obtain ⟨more, grown, _, broken⟩ := page.toList_writeGap (.between _ _ _ next)
      refine ⟨some, more, text, grown, ?_⟩
      by_cases ended : '\n' ∈ some
      · exact Text.firstLine_append_of_mem ended more
      · rw [Text.firstLine_append ended, broken (grows.midLine midLine text ended),
          Text.firstLine_of_not_mem ended, List.append_nil]
    · exact .refl grows

end Renderer

namespace Markdown

variable {renderer : Renderer} {document : Document} {view : View}

theorem pieces_leave_of_silent (silent : (leave view).strokes = [] ∨ (leave view).strokes = [.pop])
    (page : Page) : (page.applyAll (leave view).strokes).1.pieces = page.pieces := by
  rcases silent with none | pop
  · rw [none]
    rfl
  · rw [pop, Page.applyAll, Page.apply]
    cases page.padding.pop <;> rfl

theorem walk_keepsLine (follows : renderer.Follows ruleSet) (placed : document.WellPlaced)
    (holds : document.Holds view) (visible : view.Visible hides)
    (shown : hides view.node.kind = false)
    (silent : (leave view).strokes = [] ∨ (leave view).strokes = [.pop]) (page : Page) :
    ∃ entered last left,
      page.applyAll (enter view).strokes = (entered, none) ∧
      renderer.walkBelow view entered = .done last ∧ renderer.walkView view page = .done left ∧
      (entered.onNewLine = false → entered.KeepsLine last left) := by
  obtain ⟨entered, last, closed, applied, walked, appliedLast, walkedView, _⟩ :=
    walk_of_wellPlaced follows placed holds visible shown page
  have same : closed.pieces = last.pieces := by
    have silent := pieces_leave_of_silent silent last
    rwa [appliedLast] at silent
  refine ⟨entered, last, _, applied, walked, walkedView, fun midLine => ?_⟩
  have grows : entered.Grows closed :=
    (Renderer.grows_of_walkBelow follows walked).trans (.ofPieces same)
  have kept := renderer.keepsLine_writeGap view grows midLine
  simpa only [Page.KeepsLine, Page.text, same] using kept

theorem walk_ends_line (follows : renderer.Follows ruleSet)
    (separators : renderer.separators = true) (placed : document.WellPlaced)
    (holds : document.Holds view) (visible : view.Visible hides)
    (shown : hides view.node.kind = false) (block : view.node.kind.isBlock = true)
    (followed : view.place.later ≠ []) {page left : Page}
    (walked : renderer.walkView view page = .done left) :
    ∃ some, left.text.toList = page.text.toList ++ some ∧ '\n' ∈ some := by
  obtain ⟨entered, last, closed, applied, walkedBelow, appliedLast, walkedView, _⟩ :=
    walk_of_wellPlaced follows placed holds visible shown page
  cases walkedView.symm.trans walked
  have growsEntered := page.grows_applyAll (enter view).strokes
  have growsClosed := last.grows_applyAll (leave view).strokes
  rw [applied] at growsEntered
  rw [appliedLast] at growsClosed
  obtain ⟨some, text⟩ := (growsEntered.trans
    ((Renderer.grows_of_walkBelow follows walkedBelow).trans growsClosed)).toList
  obtain ⟨gap, written⟩ := renderer.writeGap_of_followed separators block followed
  obtain ⟨more, grown, ended, _⟩ := closed.toList_writeGap gap
  rw [← written] at grown
  exact ⟨some ++ more, by rw [grown, text, List.append_assoc], List.mem_append_right some ended⟩

theorem walkBelow_keepsLine (follows : renderer.Follows ruleSet)
    (separators : renderer.separators = true) (placed : document.WellPlaced)
    (holds : document.Holds view) (visible : view.Visible hides)
    (shown : hides view.node.kind = false) {child : Node} {later : List Node}
    (children : view.node.children = child :: later) (shownChild : hides child.kind = false)
    (block : child.kind.isBlock = true) {page left last : Page}
    (walked : renderer.walkView (view.child child [] later) page = .done left)
    (walkedAll : renderer.walkBelow view page = .done last) : page.KeepsLine left last := by
  rw [renderer.walkBelow_cons children, walked, Walked.andThen] at walkedAll
  cases later with
  | nil =>
    cases walkedAll
    exact .refl (Renderer.grows_of_walkView follows walked)
  | cons next others =>
    obtain ⟨some, text, newline⟩ := walk_ends_line follows separators placed
      (holds.first children) (visible.down shown child [] (next :: others))
      shownChild block (List.cons_ne_nil next others) walked
    have rest := Renderer.grows_walkAll follows view.source (view.place :: view.ancestors) [child]
      (next :: others) left
    rw [walkedAll] at rest
    exact .ofNewline text newline rest

def thematicMarks : List Char := ['-', '*', '_']

theorem isDigit_of_mem_thematicMarks : ∀ mark ∈ thematicMarks, ¬ mark.isDigit = true := by
  simp [thematicMarks]

def IsMadeOf (mark : Char) (line : List Char) : Prop := ∀ char ∈ line, char = mark ∨ char = ' '

instance (mark : Char) (line : List Char) : Decidable (IsMadeOf mark line) :=
  List.decidableBAll (fun char => char = mark ∨ char = ' ') line

/-- A line of spaces and three or more of one mark reads as a thematic break, whatever else could be
    read there. -/
def IsThematicBreak (line : List Char) : Prop :=
  ∃ mark ∈ thematicMarks, IsMadeOf mark line ∧ 3 ≤ line.count mark

instance (line : List Char) : Decidable (IsThematicBreak line) :=
  List.decidableBEx (fun mark => IsMadeOf mark line ∧ 3 ≤ line.count mark) thematicMarks

theorem isMadeOf_append {mark : Char} {front rest : List Char} :
    IsMadeOf mark (front ++ rest) ↔ IsMadeOf mark front ∧ IsMadeOf mark rest :=
  List.forall_mem_append

def itemBullet? (item : View) : Option Char :=
  match item.parent? with
  | none => none
  | some list =>
    match list.node.payload with
    | .list style => if style.start.isSome then none else some (listBullet list)
    | _ => none

/-- The first item of a list that an item begins with starts on the line of that item. The bullets of
    all items that start there are told, outermost first. -/
inductive StartsOnLine : View → List (Option Char) → View → Prop
  | self (item : View) : StartsOnLine item [itemBullet? item] item
  | nested {item innermost : View} {list inner : Node} {later others : List Node}
      {bullets : List (Option Char)} :
      item.node.children = list :: later → list.kind = .list → list.children = inner :: others →
      inner.kind = .listItem →
      StartsOnLine ((item.child list [] later).child inner [] others) bullets innermost →
      StartsOnLine item (itemBullet? item :: bullets) innermost

theorem StartsOnLine.mem {item innermost : View} {bullets : List (Option Char)}
    (starts : StartsOnLine item bullets innermost) : itemBullet? item ∈ bullets := by
  cases starts <;> simp

structure Composed (bullets : List (Option Char)) (line behind : List Char) : Prop where
  isMadeOf_iff : ∀ mark ∈ thematicMarks,
    (IsMadeOf mark line ↔ (∀ bullet ∈ bullets, bullet = some mark) ∧ IsMadeOf mark behind)
  count : ∀ mark ∈ thematicMarks, (∀ bullet ∈ bullets, bullet = some mark) →
    line.count mark = bullets.length + behind.count mark

namespace Composed

variable {bullets : List (Option Char)} {line behind : List Char}

theorem nil (line : List Char) : Composed [] line line := ⟨by simp, by simp⟩

theorem bullet (composed : Composed bullets line behind) {bullet : Char} (visible : bullet ≠ ' ')
    (spaces : Nat) :
    Composed (some bullet :: bullets) (List.replicate spaces ' ' ++ [bullet, ' '] ++ line) behind := by
  constructor
  · intro mark among
    have front : IsMadeOf mark (List.replicate spaces ' ' ++ [bullet, ' ']) ↔ bullet = mark := by
      constructor
      · intro made
        exact (made bullet (by simp)).resolve_right visible
      · rintro rfl char member
        simp only [List.mem_append, List.mem_replicate, List.mem_cons, List.not_mem_nil] at member
        tauto
    rw [isMadeOf_append, composed.isMadeOf_iff mark among, front, List.forall_mem_cons,
      Option.some_inj, and_assoc]
  · intro mark among all
    obtain ⟨same, rest⟩ := List.forall_mem_cons.mp all
    cases same
    rw [List.count_append, composed.count bullet among rest]
    simp [List.count_replicate, visible.symm]
    omega

theorem number {char : Char} (digit : char.isDigit = true) (member : char ∈ line) :
    Composed (none :: bullets) line behind := by
  constructor
  · intro mark among
    refine ⟨fun made => ?_, fun all => ?_⟩
    · rcases made char member with rfl | rfl
      · exact absurd digit (isDigit_of_mem_thematicMarks char among)
      · contradiction
    · simp at all
  · intro mark among all
    simp at all

theorem isThematicBreak_iff (composed : Composed bullets line behind)
    (some : ∃ bullet ∈ bullets, ∀ mark, bullet = some mark → mark ∈ thematicMarks) :
    IsThematicBreak line ↔ ∃ bullet, (∀ other ∈ bullets, other = .some bullet) ∧
      IsMadeOf bullet behind ∧ 3 ≤ bullets.length + behind.count bullet := by
  constructor
  · rintro ⟨mark, among, made, three⟩
    obtain ⟨all, madeBehind⟩ := (composed.isMadeOf_iff mark among).mp made
    exact ⟨mark, all, madeBehind, composed.count mark among all ▸ three⟩
  · rintro ⟨mark, all, madeBehind, three⟩
    obtain ⟨bullet, member, marks⟩ := some
    have among : mark ∈ thematicMarks := marks mark (all bullet member)
    exact ⟨mark, among, (composed.isMadeOf_iff mark among).mpr ⟨all, madeBehind⟩,
      (composed.count mark among all).symm ▸ three⟩

end Composed

theorem itemBullet?_of_list {item : View} {list : Place} {style : ListStyle}
    (parent : item.parent? = some list) (inList : list.node.payload = .list style) :
    itemBullet? item = if style.start.isSome then none else some (listBullet list) := by
  simp only [itemBullet?, parent, inList]

theorem mem_thematicMarks_of_itemBullet? {item : View} {bullet : Char}
    (isBullet : itemBullet? item = some bullet) : bullet ∈ thematicMarks := by
  unfold itemBullet? listBullet at isBullet
  split at isBullet
  · contradiction
  · split at isBullet
    · split at isBullet
      · contradiction
      · cases isBullet
        split <;> decide
    · contradiction

theorem Composed.marker {item : View} {list : Place} {style : ListStyle}
    (parent : item.parent? = some list) (inList : list.node.payload = .list style)
    {bullets : List (Option Char)} {text behind : List Char}
    (composed : Composed bullets (firstLine text) behind) (spaces : Nat) :
    Composed (itemBullet? item :: bullets)
      (firstLine ((Text.repeated spaces ' ').toList ++
        (itemMarker list style item.place.index).toList ++ text)) behind := by
  rw [itemBullet?_of_list parent inList]
  cases start : style.start with
  | none =>
    have front : (Text.repeated spaces ' ').toList ++
        (itemMarker list style item.place.index).toList =
        List.replicate spaces ' ' ++ [listBullet list, ' '] := by
      simp [itemMarker, start, Text.repeated]
    have oneLine : '\n' ∉ List.replicate spaces ' ' ++ [listBullet list, ' '] := by
      unfold listBullet
      split <;> simp
    rw [front, Text.firstLine_append oneLine]
    exact composed.bullet (by unfold listBullet; split <;> decide) spaces
  | some number =>
    have front : (Text.repeated spaces ' ').toList ++
        (itemMarker list style item.place.index).toList =
        List.replicate spaces ' ' ++ Nat.toDigits 10 (number + item.place.index) ++
          [style.marker, ' '] := by
      simp [itemMarker, start, Text.repeated]
    have oneLine : '\n' ∉
        List.replicate spaces ' ' ++ Nat.toDigits 10 (number + item.place.index) := by
      simp [not_mem_toDigits]
    obtain ⟨digit, member⟩ := List.exists_mem_of_ne_nil _
      (Nat.toDigits_ne_nil : Nat.toDigits 10 (number + item.place.index) ≠ [])
    rw [front, List.append_assoc, Text.firstLine_append oneLine]
    exact .number (Nat.isDigit_of_mem_toDigits (by decide) (by decide) member)
      (List.mem_append_left _ (List.mem_append_right _ member))

theorem strokes_list (view : View) (list : view.node.kind = .list) :
    (enter view).strokes = [] ∧ (leave view).strokes = [] := by
  cases payload : view.node.payload with
  | list style => simp only [enter, leave, payload, Reply.descend, and_self]
  | _ => simp [Node.kind, payload, Payload.kind] at list

theorem walk_itemLine (follows : renderer.Follows ruleSet) (placed : document.WellPlaced)
    {item : View} (holds : document.Holds item) (visible : item.Visible hides)
    (isItem : item.node.kind = .listItem) (page : Page) :
    ∃ entered last left opening,
      renderer.walkBelow item entered = .done last ∧ renderer.walkView item page = .done left ∧
      entered.text.toList = page.text.toList ++ opening ∧ entered.onNewLine = false ∧
      entered.KeepsLine last left ∧
      ∀ {bullets text behind}, Composed bullets (firstLine text) behind →
        Composed (itemBullet? item :: bullets) (firstLine (opening ++ text)) behind := by
  obtain ⟨offset, list, style, payload, parent, inList⟩ := list_of_wellPlaced placed holds isItem
  have silent : (leave item).strokes = [.pop] := by rw [leave_item parent inList payload]; rfl
  obtain ⟨entered, last, left, applied, walked, walkedItem, kept⟩ :=
    walk_keepsLine follows placed holds visible (by rw [isItem]; rfl) (.inr silent) page
  obtain ⟨_, appliedItem, text, _, midLine⟩ := applyAll_enter_item parent inList payload page
  cases applied.symm.trans appliedItem
  have chars := congrArg String.toList text
  rw [String.toList_append, String.toList_append, List.append_assoc] at chars
  exact ⟨entered, last, left, _, walked, walkedItem, chars, midLine, kept midLine,
    fun composed => composed.marker parent inList _⟩

/-- The items that start on the line of an item, and the blocks of the innermost one, make up the
    first line of what is written for it. -/
theorem composed_startsOnLine (follows : renderer.Follows ruleSet)
    (separators : renderer.separators = true) (placed : document.WellPlaced)
    {item innermost : View} {bullets : List (Option Char)}
    (starts : StartsOnLine item bullets innermost) (holds : document.Holds item)
    (visible : item.Visible hides) (isItem : item.node.kind = .listItem) (page : Page) :
    ∃ begun last left front behind rest,
      renderer.walkView item page = .done left ∧ renderer.walkBelow innermost begun = .done last ∧
      begun.text.toList = page.text.toList ++ front ∧
      last.text.toList = begun.text.toList ++ behind ∧ left.text.toList = last.text.toList ++ rest ∧
      Composed bullets (firstLine (front ++ behind ++ rest)) (firstLine behind) := by
  induction starts generalizing page with
  | self item =>
    obtain ⟨entered, last, left, opening, walked, walkedItem, text, _, kept, composed⟩ :=
      walk_itemLine follows placed holds visible isItem page
    obtain ⟨behind, rest, textLast, textLeft, same⟩ := kept
    refine ⟨entered, last, left, opening, behind, rest, walkedItem, walked, text, textLast,
      textLeft, ?_⟩
    rw [List.append_assoc]
    exact composed (same ▸ .nil (firstLine behind))
  | @nested item innermost list inner later others bullets children isList childrenInner isInner _ ih =>
    obtain ⟨entered, lastItem, leftItem, opening, walkedBelow, walkedItem, text, midLine, kept,
      composed⟩ := walk_itemLine follows placed holds visible isItem page
    have shownItem : hides item.node.kind = false := by rw [isItem]; rfl
    have shownList : hides list.kind = false := by rw [isList]; rfl
    have shownInner : hides inner.kind = false := by rw [isInner]; rfl
    have holdsList := holds.first children
    have visibleList := visible.down shownItem list [] later
    obtain ⟨silentEnter, silentLeave⟩ := strokes_list (item.child list [] later) isList
    obtain ⟨enteredList, lastList, leftList, appliedList, walkedBelowList, walkedList, keptList⟩ :=
      walk_keepsLine follows placed holdsList visibleList shownList (.inl silentLeave) entered
    rw [silentEnter] at appliedList
    cases appliedList
    have holdsInner := holdsList.first childrenInner
    have visibleInner := visibleList.down shownList inner [] others
    obtain ⟨begun, last, left, front, behind, rest, walkedInner, walkedInnermost, textBegun,
      textLast, textLeft, composedInner⟩ := ih holdsInner visibleInner isInner entered
    -- what follows the innermost blocks: the other items, the other blocks, the end of the item
    have whole : entered.KeepsLine left leftItem :=
      (walkBelow_keepsLine follows separators placed holdsList visibleList shownList childrenInner
        shownInner (by rw [isInner]; rfl) walkedInner walkedBelowList).trans
      ((keptList midLine).trans
      ((walkBelow_keepsLine follows separators placed holds visible shownItem children shownList
        (by rw [isList]; rfl) walkedList walkedBelow).trans kept))
    obtain ⟨some, more, textSome, textMore, same⟩ := whole
    have joined : some = front ++ behind ++ rest := by
      rw [textLeft, textLast, textBegun, List.append_assoc, List.append_assoc] at textSome
      rw [List.append_assoc]
      exact (List.append_cancel_left textSome).symm
    refine ⟨begun, last, leftItem, opening ++ front, behind, rest ++ more, walkedItem,
      walkedInnermost, ?_, textLast, ?_, ?_⟩
    · rw [textBegun, text, List.append_assoc]
    · rw [textMore, textLeft, List.append_assoc]
    · have line : opening ++ front ++ behind ++ (rest ++ more) = opening ++ (some ++ more) := by
        simp only [joined, List.append_assoc]
      rw [line]
      refine composed ?_
      rw [same, joined]
      exact composedInner

/-- What is written for an item begins with a thematic break exactly if all items that start on its
    line have one bullet, what the blocks of the innermost one begin with is made of that bullet and
    spaces, and there are three bullets at least. -/
theorem itemLine_isThematicBreak_iff (options : Options) :
    ∃ conversion, Conversion.ofOptions .markdown options = .ok conversion ∧
    ∀ (document : Document) item bullets innermost (page : Page),
      document.WellPlaced → document.Holds item → item.Visible hides →
      item.node.kind = .listItem → StartsOnLine item bullets innermost →
      ∃ begun last left front behind rest,
        conversion.renderer.walkView item page = .done left ∧
        conversion.renderer.walkBelow innermost begun = .done last ∧
        begun.text.toList = page.text.toList ++ front ∧
        last.text.toList = begun.text.toList ++ behind ∧
        left.text.toList = last.text.toList ++ rest ∧
        (IsThematicBreak (firstLine (front ++ behind ++ rest)) ↔
          ∃ bullet, (∀ other ∈ bullets, other = some bullet) ∧
            IsMadeOf bullet (firstLine behind) ∧
            3 ≤ bullets.length + (firstLine behind).count bullet) := by
  obtain ⟨conversion, made, follows, separators⟩ := Conversion.exists_markdown options
  refine ⟨conversion, made, ?_⟩
  intro document item bullets innermost page placed holds visible isItem starts
  obtain ⟨begun, last, left, front, behind, rest, walked, walkedBelow, textBegun, textLast, textLeft,
    composed⟩ := composed_startsOnLine follows separators placed starts holds visible isItem page
  exact ⟨begun, last, left, front, behind, rest, walked, walkedBelow, textBegun, textLast, textLeft,
    composed.isThematicBreak_iff
      ⟨_, starts.mem, fun mark isBullet => mem_thematicMarks_of_itemBullet? isBullet⟩⟩

def numberedItem : Node := ⟨.listItem 3, ⟨2, 8⟩, {}, [.leaf .thematicBreak ⟨5, 8⟩]⟩

def numberedList : Node := ⟨.list ⟨some 7, '.', true, false⟩, ⟨2, 8⟩, {}, [numberedItem]⟩

def bulletItem : Node := ⟨.listItem 2, ⟨0, 8⟩, {}, [numberedList]⟩

def bulletList : Node := ⟨.list ⟨none, '*', true, false⟩, ⟨0, 8⟩, {}, [bulletItem]⟩

def numberedBehindBullet : Document := ⟨⟨[]⟩, ⟨.document, ⟨0, 8⟩, {}, [bulletList]⟩⟩

def bulletView : View :=
  ⟨⟨[]⟩, ⟨bulletItem, [], []⟩, [⟨bulletList, [], []⟩, ⟨numberedBehindBullet.root, [], []⟩]⟩

theorem itemLine_isThematicBreak_bulletView :
    let innermost := (bulletView.child numberedList [] []).child numberedItem [] []
    ∃ conversion, Conversion.ofOptions .markdown {} = .ok conversion ∧
    numberedBehindBullet.WellPlaced ∧ numberedBehindBullet.Holds bulletView ∧
    bulletView.Visible hides ∧ bulletView.node.kind = .listItem ∧
    StartsOnLine bulletView [some '-', none] innermost ∧
    ∃ begun last left front behind rest,
      conversion.renderer.walkView bulletView {} = .done left ∧
      conversion.renderer.walkBelow innermost begun = .done last ∧
      begun.text.toList = front ∧ last.text.toList = begun.text.toList ++ behind ∧
      left.text.toList = last.text.toList ++ rest ∧
      ¬ IsThematicBreak (firstLine (front ++ behind ++ rest)) := by
  have placed : numberedBehindBullet.WellPlaced := by
    refine Document.wellPlaced_of_placed ?_ rfl
    have placedNumbers : numberedList.Placed := Node.placed_iff.mpr
      (.singleton rfl (Node.placed_iff.mpr (.singleton rfl (Node.placed_iff.mpr .nil))))
    exact Node.placed_iff.mpr (.singleton rfl
      (Node.placed_iff.mpr (.singleton rfl (Node.placed_iff.mpr (.singleton rfl placedNumbers)))))
  have holds : numberedBehindBullet.Holds bulletView :=
    (Document.Holds.root.first rfl).first rfl
  have visible : bulletView.Visible hides := by
    show ∀ ancestor ∈ bulletView.ancestors, _
    decide
  have starts : StartsOnLine bulletView [some '-', none]
      ((bulletView.child numberedList [] []).child numberedItem [] []) :=
    StartsOnLine.nested rfl rfl rfl rfl (.self _)
  obtain ⟨conversion, made, lines⟩ := itemLine_isThematicBreak_iff {}
  obtain ⟨begun, last, left, front, behind, rest, walked, walkedBelow, textBegun, textLast, textLeft,
    broken⟩ := lines numberedBehindBullet bulletView _ _ {} placed holds visible rfl starts
  refine ⟨conversion, made, placed, holds, visible, rfl, starts, begun, last, left, front, behind,
    rest, walked, walkedBelow, textBegun, textLast, textLeft, ?_⟩
  rw [broken]
  rintro ⟨bullet, all, _⟩
  simpa using all none

def nestedBullets : List Event :=
  [⟨.start (.list none), ⟨0, 5⟩⟩, ⟨.start .item, ⟨0, 5⟩⟩, ⟨.start (.list none), ⟨2, 5⟩⟩,
    ⟨.start .item, ⟨2, 5⟩⟩, ⟨.start (.list none), ⟨4, 5⟩⟩, ⟨.start .item, ⟨4, 5⟩⟩, ⟨.close, ⟨4, 5⟩⟩,
    ⟨.close, ⟨4, 5⟩⟩, ⟨.close, ⟨2, 5⟩⟩, ⟨.close, ⟨2, 5⟩⟩, ⟨.close, ⟨0, 5⟩⟩, ⟨.close, ⟨0, 5⟩⟩]

def breakBehindList : List Event :=
  [⟨.start (.list none), ⟨0, 4⟩⟩, ⟨.start .item, ⟨0, 4⟩⟩, ⟨.text "a", ⟨2, 3⟩⟩, ⟨.close, ⟨0, 4⟩⟩,
    ⟨.close, ⟨0, 4⟩⟩, ⟨.start (.list none), ⟨4, 9⟩⟩, ⟨.start .item, ⟨4, 9⟩⟩, ⟨.rule, ⟨6, 9⟩⟩,
    ⟨.close, ⟨4, 9⟩⟩, ⟨.close, ⟨4, 9⟩⟩]

def dashesInItem : List Event :=
  [⟨.start (.list none), ⟨0, 4⟩⟩, ⟨.start .item, ⟨0, 4⟩⟩, ⟨.text "--", ⟨2, 4⟩⟩, ⟨.close, ⟨0, 4⟩⟩,
    ⟨.close, ⟨0, 4⟩⟩]

/-- Three empty items on a line, a thematic break in a list that took the other bullet, and dashes in
    an item whose bullet was a plus sign. -/
theorem broken_itemLines :
    (∃ conversion, Conversion.ofOptions .markdown {} = .ok conversion ∧
      conversion.convert (.ofString "- + -") nestedBullets = .ok "- - - " ∧
      conversion.convert (.ofString "- a\n* ---") breakBehindList = .ok "- a\n* ***\n" ∧
      conversion.convert (.ofString "+ --") dashesInItem = .ok "- --") ∧
    IsThematicBreak "- - - ".toList ∧ IsThematicBreak "* ***".toList ∧
    IsThematicBreak "- --".toList :=
  ⟨⟨_, Conversion.ofOptions_markdown {}, rfl, rfl, rfl⟩, by decide, by decide, by decide⟩

end Markdown

end CanonicalMarkdown
