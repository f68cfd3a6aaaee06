import CanonicalMarkdown.Proofs.Html.VisitTags
import CanonicalMarkdown.Proofs.VisitedPage

namespace CanonicalMarkdown.Html

def Tag.isNamed : Tag → Bool
  | .opening name _ | .closing name => isName name

def Tag.attributeNames : Tag → List String
  | .opening _ attributes => attributes.map (·.name)
  | .closing _ => []

/-- A page of printed tags, and of texts without angle brackets. -/
inductive Composed : String → List Tag → Prop
  | nil : Composed "" []
  | text {piece rest : String} {tags : List Tag} :
      IsPlain piece.toList → Composed rest tags → Composed (piece ++ rest) tags
  | tag {tag : Tag} {rest : String} {tags : List Tag} :
      tag.isNamed = true → Composed rest tags → Composed (tag.print ++ rest) (tag :: tags)

namespace Composed

variable {page other : String} {tags more : List Tag}

theorem append (first : Composed page tags) (second : Composed other more) :
    Composed (page ++ other) (tags ++ more) := by
  induction first with
  | nil => rwa [String.empty_append]
  | text plain _ ih =>
    rw [String.append_assoc]
    exact .text plain ih
  | tag named _ ih =>
    rw [String.append_assoc]
    exact .tag named ih

theorem ofTag {tag : Tag} (named : tag.isNamed = true) : Composed tag.print [tag] := by
  have composed := Composed.tag named .nil
  rwa [String.append_empty] at composed

theorem ofText {text : String} (plain : IsPlain text.toList) : Composed text [] := by
  have composed := Composed.text plain .nil
  rwa [String.append_empty] at composed

end Composed

theorem Tag.isNamed_of_isReadable {tag : Tag} (readable : tag.isReadable = true) :
    tag.isNamed = true := by
  cases tag with
  | opening name attributes => exact (Bool.and_eq_true_iff.mp readable).1
  | closing name => exact readable

theorem Prints.composed {page : String} {tags : List Tag} {shown : List Char}
    (prints : Prints page tags shown) : Composed page tags := by
  induction prints with
  | nil => exact .nil
  | text text _ ih => exact .text (isPlain_escape text) ih
  | tag readable _ ih => exact .tag (Tag.isNamed_of_isReadable readable) ih

section counts

variable {c : Char}

/-- How often a character occurs in the texts. -/
def countIn (c : Char) (texts : List String) : Nat := (String.join texts).toList.count c

@[simp] theorem countIn_nil : countIn c [] = 0 := rfl

@[simp] theorem countIn_cons (text : String) (rest : List String) :
    countIn c (text :: rest) = text.toList.count c + countIn c rest := by
  rw [countIn, String.join_cons, String.toList_append, List.count_append]
  rfl

@[simp] theorem countIn_append (first second : List String) :
    countIn c (first ++ second) = countIn c first + countIn c second := by
  rw [countIn, String.join_append, String.toList_append, List.count_append]
  rfl

theorem countIn_eq_zero_iff {texts : List String} :
    countIn c texts = 0 ↔ ∀ text ∈ texts, c ∉ text.toList := by
  induction texts with
  | nil => simp
  | cons text rest ih =>
    rw [countIn_cons, Nat.add_eq_zero_iff, ih, List.count_eq_zero, List.forall_mem_cons]

theorem IsPlain.count_eq_zero {chars : List Char} (plain : IsPlain chars)
    (bracket : c = '<' ∨ c = '>') : chars.count c = 0 := by
  rcases bracket with rfl | rfl
  · exact List.count_eq_zero.mpr plain.1
  · exact List.count_eq_zero.mpr plain.2

theorem count_attributeText (bracket : c = '<' ∨ c = '>') (entry : Attribute) :
    (attributeText entry).toList.count c = entry.name.toList.count c := by
  have blank : " ".toList.count c = 0 := by rcases bracket with rfl | rfl <;> decide
  unfold attributeText
  split
  · have equals : "=\"".toList.count c = 0 := by rcases bracket with rfl | rfl <;> decide
    have quote : "\"".toList.count c = 0 := by rcases bracket with rfl | rfl <;> decide
    have value (text : String) : (escape text).toList.count c = 0 :=
      (isPlain_escape text).count_eq_zero bracket
    simp only [quotedAttribute, String.toList_append, List.count_append, blank, equals, quote, value]
    omega
  · simp only [String.toList_append, List.count_append, blank]
    omega

theorem countIn_attributeTexts (bracket : c = '<' ∨ c = '>') (attributes : List Attribute) :
    countIn c (attributes.map attributeText) = countIn c (attributes.map (·.name)) := by
  induction attributes with
  | nil => rfl
  | cons entry rest ih =>
    rw [List.map_cons, List.map_cons, countIn_cons, countIn_cons, ih,
      count_attributeText bracket entry]

theorem count_inside (bracket : c = '<' ∨ c = '>') {tag : Tag} (named : tag.isNamed = true) :
    tag.inside.toList.count c = countIn c tag.attributeNames := by
  cases tag with
  | closing name =>
    have slash : IsPlain "/".toList := by simp [IsPlain]
    have plain := slash.append (Tag.isPlain_of_isName named)
    rw [Tag.inside, String.toList_append, plain.count_eq_zero bracket]
    rfl
  | opening name attributes =>
    have plainName := (Tag.isPlain_of_isName named).count_eq_zero bracket
    have ending : IsPlain (if isVoid name then " /" else "").toList := by
      split <;> simp [IsPlain]
    have texts := countIn_attributeTexts bracket attributes
    rw [Tag.inside, String.toList_append, String.toList_append, List.count_append,
      List.count_append, plainName, ending.count_eq_zero bracket, Nat.zero_add, Nat.add_zero]
    exact texts

theorem count_print (bracket : c = '<' ∨ c = '>') {tag : Tag} (named : tag.isNamed = true) :
    tag.print.toList.count c = 1 + countIn c tag.attributeNames := by
  have pair : "<".toList.count c + ">".toList.count c = 1 := by
    rcases bracket with rfl | rfl <;> decide
  rw [Tag.print, String.toList_append, String.toList_append, List.count_append, List.count_append,
    count_inside bracket named]
  omega

theorem Composed.count {page : String} {tags : List Tag} (composed : Composed page tags)
    (bracket : c = '<' ∨ c = '>') :
    page.toList.count c = tags.length + countIn c (tags.flatMap Tag.attributeNames) := by
  induction composed with
  | nil => rfl
  | text plain _ ih =>
    rw [String.toList_append, List.count_append, plain.count_eq_zero bracket, ih, Nat.zero_add]
  | tag named _ ih =>
    rw [String.toList_append, List.count_append, count_print bracket named, ih, List.flatMap_cons,
      countIn_append, List.length_cons]
    omega

end counts

inductive Composes : List Stroke → List Tag → Prop
  | nil : Composes [] []
  | text {text : String} {rest : List Stroke} {tags more : List Tag} :
      Composed text tags → Composes rest more → Composes (.text text :: rest) (tags ++ more)

theorem Composes.one {text : String} {tags : List Tag} (composed : Composed text tags) :
    Composes [.text text] tags := by
  have composes := Composes.text composed .nil
  rwa [List.append_nil] at composes

theorem Writes.composes {strokes : List Stroke} {tags : List Tag} {shown : List Char}
    (writes : Writes strokes tags shown) : Composes strokes tags := by
  induction writes with
  | nil => exact .nil
  | text prints _ ih => exact .text prints.composed ih

section rules

variable {view : View} {phase : Phase} {step : Step}

theorem composes_enter (notHtml : view.node.kind ≠ .htmlBlock ∧ view.node.kind ≠ .rawHtml)
    (answered : (enter view).next = .ok step) :
    Composes (enter view).strokes (enterTags view) := by
  by_cases unnamed : carriesAttributes view.node.kind = false
  · exact (writes_enter_of_unnamed unnamed notHtml answered).composes
  -- any name may stand in the tags that are left, since only their own names are looked at
  have link (address : String) (title : Option String) (attributes : Attributes) :
      Composed ("<a href=\"" ++ escapeAddress address ++ "\"" ++ titleAttribute title
        ++ attributesText attributes ++ ">") [linkTag address title attributes] := by
    rw [← print_linkTag]
    exact .ofTag (by decide : isName "a" = true)
  unfold Node.kind at unnamed
  unfold enter enterTags
  cases payload : view.node.payload with
  | heading level =>
    dsimp only [Reply.descend]
    rw [← print_headingTag]
    exact .one (.ofTag (Bool.and_eq_true_iff.mp (isElement_headingName level)).1)
  | link target => exact .one (link target.destination target.title view.node.attributes)
  | autoLink url email =>
    have opening := link (if email then "mailto:" ++ url else url) none view.node.attributes
    rw [titleAttribute, String.append_empty] at opening
    exact .one ((opening.append (.ofText (isPlain_escape url))).append
      (Prints.closing "a" (by decide)).composed)
  | _ => simp [payload, Payload.kind, carriesAttributes] at unnamed

theorem composes_reply (notHtml : view.node.kind ≠ .htmlBlock ∧ view.node.kind ≠ .rawHtml)
    (answered : (reply view phase).next = .ok step) :
    Composes (reply view phase).strokes (visitTags (view, phase)) := by
  cases phase with
  | enter => exact composes_enter notHtml answered
  | leave => exact (writes_leave answered).composes

end rules

section pages

structure Composing (page : Page) (tags : List Tag) : Prop where
  levels : page.padding.levels = []
  composed : Composed page.text tags

variable {page : Page} {tags more : List Tag}

theorem Composing.write {text : String} (composing : Composing page tags)
    (composed : Composed text more) : Composing (page.write text) (tags ++ more) where
  levels := by rw [Page.padding_write, composing.levels]
  composed := by
    rw [Page.text_write]
    exact composing.composed.append composed

theorem Composing.applyAll {strokes : List Stroke} (composing : Composing page tags)
    (composes : Composes strokes more) :
    ∃ next, page.applyAll strokes = (next, none) ∧ Composing next (tags ++ more) := by
  induction composes generalizing page tags with
  | nil => exact ⟨page, rfl, by rwa [List.append_nil]⟩
  | text composed _ ih =>
    obtain ⟨next, applied, composingNext⟩ := ih (composing.write composed)
    exact ⟨next, applied, by rwa [← List.append_assoc]⟩

theorem Composing.writeAll {texts : List String} (composing : Composing page tags)
    (plain : ∀ text ∈ texts, IsPlain text.toList) : Composing (page.writeAll texts) tags := by
  induction texts generalizing page with
  | nil => exact composing
  | cons text rest ih =>
    obtain ⟨first, others⟩ := List.forall_mem_cons.mp plain
    have written := composing.write (.ofText first)
    rw [List.append_nil] at written
    exact ih written others

theorem isPlain_counter (padding : Padding) : ∀ text ∈ padding.counter, IsPlain text.toList := by
  unfold Padding.counter
  split
  · exact List.forall_mem_singleton.mpr (Tag.isPlain_of_isName (isName_toString _))
  · simp

theorem Composing.writePadding (composing : Composing page tags) :
    Composing page.writePadding tags ∧ Composing page.writeBlankPadding tags := by
  -- without open levels nothing but the counter is written
  have nothing : IsPlain "".toList := by simp [IsPlain]
  have line : ∀ text ∈ page.padding.line, IsPlain text.toList := by
    rw [Padding.line, composing.levels, List.reverse_nil, List.append_nil]
    exact isPlain_counter page.padding
  have blankLine : ∀ text ∈ page.padding.blankLine, IsPlain text.toList := by
    rw [Padding.blankLine, Padding.text, composing.levels]
    exact List.forall_mem_append.mpr
      ⟨isPlain_counter page.padding, List.forall_mem_singleton.mpr nothing⟩
  have padded {next : Page} (written : Composing next tags) :
      Composing { next with padding := page.padding.next } tags :=
    ⟨by rw [← composing.levels]; exact page.padding.levels_next, written.composed⟩
  exact ⟨padded (composing.writeAll line), padded (composing.writeAll blankLine)⟩

theorem Composing.writeGap (composing : Composing page tags) (renderer : Renderer) (view : View) :
    Composing (renderer.writeGap view page) tags := by
  have newline {page : Page} (composing : Composing page tags) :
      Composing (page.write "\n") tags := by
    have written := composing.write (.ofText (by simp [IsPlain] : IsPlain "\n".toList))
    rwa [List.append_nil] at written
  have gap (gap : Gap) : Composing (page.writeGap gap) tags := by
    unfold Page.writeGap
    refine (newline ?_).writePadding.1
    have begun : Composing (if page.onNewLine then page.writeBlankPadding else page) tags := by
      split
      · exact composing.writePadding.2
      · exact composing
    split
    · exact (newline begun).writePadding.2
    · exact begun
  unfold Renderer.writeGap
  split
  · exact composing
  · dsimp only
    split
    · exact gap _
    · exact composing

theorem exists_next_of_calm {view : View} {phase : Phase}
    (calm : ruleSet.complaint (view, phase) = none) :
    ∃ step, (reply view phase).next = .ok step := by
  unfold RuleSet.complaint at calm
  split at calm
  · contradiction
  · exact ⟨_, ‹_›⟩

variable {renderer : Renderer}

theorem Composing.visit {view : View} {phase : Phase} (composing : Composing page tags)
    (notHtml : view.node.kind ≠ .htmlBlock ∧ view.node.kind ≠ .rawHtml)
    (calm : ruleSet.complaint (view, phase) = none) :
    Composing (renderer.visit ruleSet page (view, phase)) (tags ++ visitTags (view, phase)) := by
  obtain ⟨step, answered⟩ := exists_next_of_calm calm
  obtain ⟨next, applied, composed⟩ := composing.applyAll (composes_reply notHtml answered)
  cases phase with
  | enter =>
    have entered : renderer.visit ruleSet page (view, .enter) = next := by
      rw [Renderer.visit, Renderer.strokes]
      exact congrArg Prod.fst applied
    rwa [entered]
  | leave =>
    have left : renderer.visit ruleSet page (view, .leave) = renderer.writeGap view next := by
      have applied : page.applyAll (ruleSet.reply view .leave).strokes = (next, none) := applied
      simp only [Renderer.visit, Renderer.strokes, Page.applyAll_append, applied,
        Renderer.applyAll_gapStrokes]
    rw [left]
    exact composed.writeGap renderer view

theorem Composing.visits {visits : List (View × Phase)} (composing : Composing page tags)
    (notHtml : ∀ visit ∈ visits, visit.1.node.kind ≠ .htmlBlock ∧ visit.1.node.kind ≠ .rawHtml)
    (calm : ∀ visit ∈ visits, ruleSet.complaint visit = none) :
    Composing (visits.foldl (renderer.visit ruleSet) page) (tags ++ visits.flatMap visitTags) := by
  induction visits generalizing page tags with
  | nil => rwa [List.flatMap_nil, List.append_nil]
  | cons first rest ih =>
    obtain ⟨here, others⟩ := List.forall_mem_cons.mp notHtml
    obtain ⟨calmHere, calmBehind⟩ := List.forall_mem_cons.mp calm
    have visited : Composing (renderer.visit ruleSet page first) (tags ++ visitTags first) :=
      composing.visit here calmHere
    have all := ih visited others calmBehind
    rwa [List.append_assoc] at all

theorem composed_render {priority : Int} {document : Document} {text : String}
    (alone : DispatchTable.ofProviders [provider priority] = .ok renderer.table)
    (notHtml : ∀ visit ∈ document.visits hides,
      visit.1.node.kind ≠ .htmlBlock ∧ visit.1.node.kind ≠ .rawHtml)
    (rendered : renderer.render document = .ok text) :
    Composed text ((document.visits hides).flatMap visitTags) := by
  obtain ⟨calm, rfl⟩ := (Renderer.render_eq_ok_iff (follows alone)).mp rendered
  have start : Composing { padding := { verbose := renderer.verbosePadding } } [] := ⟨rfl, .nil⟩
  exact (start.visits notHtml calm).composed

end pages

end CanonicalMarkdown.Html
