import Mathlib.Data.List.DropRight
import CanonicalMarkdown.Proofs.Markdown.FenceReading
import CanonicalMarkdown.Proofs.Markdown.LinkTail
import CanonicalMarkdown.Proofs.Markdown.TidyRules

namespace CanonicalMarkdown.Markdown

open Text

section Reader

/-- Without the run of number signs at the end, if a space or nothing stands before it. Behind a
    space no number sign is escaped. -/
def withoutClosing (content : List Char) : List Char :=
  let front := content.rdropWhile (· = '#')
  if front = [] ∨ front.getLast? = some ' ' then front else content

/-- The level of a heading and its content: a run of number signs, a space, and the rest of the
    line up to a closing run. -/
def readHeading? (line : List Char) : Option (Nat × List Char) :=
  let level := Fence.run '#' line
  match line.drop level with
  | ' ' :: content =>
    if 1 ≤ level ∧ level ≤ 6 then some (level, withoutClosing content) else none
  | _ => none

def ClosesHeading (content : List Char) : Prop :=
  ∃ front count, content = front ++ List.replicate (count + 1) '#' ∧
    (front = [] ∨ front.getLast? = some ' ')

variable {content : List Char}

theorem rdropWhile_replicate {front : List Char} (ends : front.getLast? ≠ some '#') (count : Nat) :
    (front ++ List.replicate count '#').rdropWhile (· = '#') = front := by
  induction count with
  | zero =>
    rw [List.replicate_zero, List.append_nil, List.rdropWhile_eq_self_iff]
    intro filled last
    rw [List.getLast?_eq_some_getLast filled] at ends
    exact ends (congrArg some (by simpa using last))
  | succ count ih =>
    rw [List.replicate_succ', ← List.append_assoc, List.rdropWhile_concat_pos _ _ _ (by simp), ih]

theorem withoutClosing_eq_iff : withoutClosing content = content ↔ ¬ClosesHeading content := by
  constructor
  · rintro same ⟨front, count, rfl, opened⟩
    have ends : front.getLast? ≠ some '#' := by
      rcases opened with rfl | space
      · simp
      · simp [space]
    rw [withoutClosing, rdropWhile_replicate ends, if_pos opened] at same
    simpa using congrArg List.length same
  · intro stays
    unfold withoutClosing
    dsimp only
    split
    · rename_i opened
      have split : content.rdropWhile (· = '#') ++ content.rtakeWhile (· = '#') = content :=
        List.rdropWhile_append_rtakeWhile
      cases taken : content.rtakeWhile (· = '#') with
      | nil => rwa [taken, List.append_nil] at split
      | cons first rest =>
        have signs : first :: rest = List.replicate (rest.length + 1) '#' := by
          refine List.eq_replicate_iff.mpr ⟨rfl, fun c member => ?_⟩
          rw [← taken] at member
          simpa using List.mem_rtakeWhile_imp member
        rw [taken, signs] at split
        exact absurd ⟨_, _, split.symm, opened⟩ stays
    · rfl

theorem readHeading?_eq_iff {level : Nat} (levels : 1 ≤ level ∧ level ≤ 6) :
    readHeading? (List.replicate level '#' ++ ' ' :: content) = some (level, content) ↔
      ¬ClosesHeading content := by
  have run : Fence.run '#' (List.replicate level '#' ++ ' ' :: content) = level :=
    Fence.run_replicate_append (by simp) level
  rw [← withoutClosing_eq_iff, readHeading?, run, List.drop_left' (by simp)]
  simp [levels]

end Reader

section Strokes

/-- On every page the strokes are applied to the end, and what they write holds no newline just if
    `oneLine` is true. -/
def Writes (oneLine : Bool) (strokes : List Stroke) : Prop :=
  ∀ page : Page, ∃ next more, page.applyAll strokes = (next, none) ∧
    next.text = page.text ++ more ∧ isOneLine more = oneLine

namespace Writes

theorem nil : Writes true [] := fun page => ⟨page, "", rfl, by simp, rfl⟩

theorem text (text : String) : Writes (isOneLine text) [.text text] := fun page =>
  ⟨page.write text, text, rfl, page.text_write text, rfl⟩

theorem oneLine {shown : String} (oneLine : '\n' ∉ shown.toList) :
    Writes true [.text shown] := by
  rw [← isOneLine_iff.mpr oneLine]
  exact text shown

theorem append {left right : Bool} {first second : List Stroke} (begins : Writes left first)
    (ends : Writes right second) : Writes (left && right) (first ++ second) := by
  intro page
  obtain ⟨between, front, applied, written, front_eq⟩ := begins page
  obtain ⟨next, more, appliedMore, writtenMore, more_eq⟩ := ends between
  refine ⟨next, front ++ more, ?_, ?_, ?_⟩
  · rw [Page.applyAll_append, applied]
    exact appliedMore
  · rw [writtenMore, written, String.append_assoc]
  · rw [isOneLine_append, front_eq, more_eq]

theorem cons {oneLine : Bool} {rest : List Stroke} (shown : String) (ends : Writes oneLine rest) :
    Writes (isOneLine shown && oneLine) (.text shown :: rest) := (Writes.text shown).append ends

theorem flatMap {α : Type} {items : List α} {strokes : α → List Stroke} {oneLine : α → Bool}
    (each : ∀ item, Writes (oneLine item) (strokes item)) :
    Writes (items.all oneLine) (items.flatMap strokes) := by
  induction items with
  | nil => exact nil
  | cons item rest ih => exact (each item).append ih

theorem map_text (texts : List String) : Writes (texts.all isOneLine) (texts.map .text) := by
  induction texts with
  | nil => exact nil
  | cons shown rest ih => exact cons shown ih

theorem broken {shown : String} {rest : List Stroke} (newline : isOneLine shown = false)
    (keeps : KeepsLevels rest) : Writes false (.text shown :: rest) := by
  intro page
  obtain ⟨next, applied, _⟩ := Page.applyAll_of_levelsAfter
    ((KeepsLevels.text shown).cons keeps page.padding.levels)
  have behind : page.applyAll ([shown].map .text ++ rest) = (next, none) := applied
  obtain ⟨more, written⟩ := Page.text_of_texts behind
  refine ⟨next, _, applied, written, ?_⟩
  simp [isOneLine_append, newline]

theorem paddedText (shown : String) : Writes (isOneLine shown) (paddedText shown) := by
  cases lined : isOneLine shown with
  | true =>
    rw [isOneLine_iff] at lined
    by_cases empty : shown.toList = []
    · rw [Markdown.paddedText, linesOf, empty]
      exact nil
    · rw [Markdown.paddedText, linesOf, lines_of_not_mem lined empty]
      exact .oneLine (by simpa using lined)
  | false =>
    obtain ⟨line, more, split, newline⟩ := lines_of_mem (isOneLine_eq_false_iff.mp lined)
    have broken' : isOneLine (String.ofList line) = false := by
      simpa [isOneLine_eq_false_iff] using newline
    rw [Markdown.paddedText, linesOf, split, List.map_cons]
    cases more with
    | nil => exact broken broken' .nil
    | cons next rest => exact broken broken' (.cons .padding (keepsLevels_paddedLines _))

end Writes

end Strokes

section Rules

theorem newline_mem_escapeWith {special : Char → Bool} {text : List Char} :
    '\n' ∈ escapeWith special text ↔ '\n' ∈ text := by
  refine ⟨fun member => ?_, fun member => List.mem_flatMap.mpr ⟨'\n', member, ?_⟩⟩
  · by_contra oneLine
    exact not_mem_escapeWith special oneLine member
  · split <;> simp

theorem isOneLine_destinationText (destination : String) (hasTitle : Bool) :
    isOneLine (destinationText destination hasTitle) = isOneLine destination := by
  refine isOneLine_congr ?_
  rw [destinationText, String.toList_ofList]
  unfold destinationChars
  split
  · rename_i empty
    rw [empty]
    split <;> simp
  · split
    · simp [newline_mem_escapeWith]
    · rename_i bare
      have oneLine : '\n' ∉ destination.toList := fun member =>
        bare (List.any_eq_true.mpr ⟨'\n', member, by decide⟩)
      exact iff_of_false (not_mem_bareDestination _ oneLine) oneLine

theorem isOneLine_titleText (title : String) : isOneLine (titleText title) = isOneLine title :=
  isOneLine_congr (by simp [titleText, titleChars, newline_mem_escapeWith])

theorem isOneLine_spacedCode (code : String) :
    isOneLine (.ofList (spacedCode code.toList)) = isOneLine code := by
  refine isOneLine_congr ?_
  rw [String.toList_ofList, spacedCode]
  split <;> simp

theorem writes_targetStrokes (target : LinkTarget) :
    Writes target.isOneLine (targetStrokes target) := by
  have shape : target.isOneLine = (targetTexts target).all isOneLine := by
    rw [LinkTarget.isOneLine, targetTexts]
    cases target.title <;>
      simp [isOneLine_destinationText, isOneLine_titleText, show isOneLine "](" = true from rfl,
        show isOneLine ")" = true from rfl, show isOneLine " " = true from rfl]
  rw [shape, targetStrokes_eq]
  exact .map_text _

theorem writes_codeSpanChild (source : Source) (child : Node) :
    Writes (isOneLineCode source child) (codeSpanChild source child) := by
  obtain ⟨payload, span, attributes, children⟩ := child
  cases payload with
  | text run => exact .paddedText (source.slice run.segment)
  | string code =>
    have content := Writes.text (.ofList (spacedCode code.toList))
    rwa [isOneLine_spacedCode] at content
  | _ => exact .nil

theorem writes_imageDescription (source : Source) (children : List Node) :
    Writes (match children.head?, children.getLast? with
      | some first, some last => isOneLine (source.slice ⟨first.span.start, last.span.stop⟩)
      | _, _ => true) (imageDescription source children) := by
  unfold imageDescription
  cases children.head? with
  | none => exact .nil
  | some first =>
    cases children.getLast? with
    | none => exact .nil
    | some last => exact .paddedText _

def shownText (source : Source) (run : TextRun) : String :=
  if !run.raw && (source.slice run.segment).isEmpty then run.literal
  else source.slice run.segment

theorem writes_runText (source : Source) (run : TextRun) :
    Writes (isOneLine (shownText source run)) (runText source run) := by
  unfold shownText runText
  dsimp only
  cases run.raw with
  | true => exact .paddedText _
  | false => cases (source.slice run.segment).isEmpty <;> exact .text _

theorem writes_runBreak {view : View} (inside : view.within .heading = true) (run : TextRun) :
    Writes true (runBreak view run) := by
  unfold runBreak
  rw [if_pos inside]
  split
  · exact .nil
  · exact .text " "

def shownAddress (source : Source) (span : Span) (url : String) : String :=
  if (source.slice span).isEmpty then url else source.slice span

theorem writes_autoLinkText (source : Source) (span : Span) (url : String) :
    Writes (isOneLine (shownAddress source span url)) (autoLinkText source span url) := by
  unfold shownAddress autoLinkText
  dsimp only
  cases (source.slice span).isEmpty with
  | true =>
    have bracketed := ((Writes.text "<").append (.text url)).append (.text ">")
    rwa [show isOneLine "<" = true from rfl, show isOneLine ">" = true from rfl, Bool.true_and,
      Bool.and_true] at bracketed
  | false => exact .text _

/-- Whether what a call of a rule writes inside a heading holds no newline. -/
def isOneLineCall : View × Phase → Bool
  | (view, .enter) =>
    match view.node.payload with
    | .text run => isOneLine (shownText view.source run)
    | .autoLink url _ => isOneLine (shownAddress view.source view.node.span url)
    | .link _ => true
    | _ => isPlain view.source view.node
  | (view, .leave) =>
    match view.node.payload with
    | .link target => target.isOneLine
    | _ => true

theorem writes_enter {view : View} (inline : view.node.kind.isBlock = false)
    (inside : view.within .heading = true) :
    Writes (isOneLineCall (view, .enter)) (enter view).strokes := by
  obtain ⟨source, ⟨⟨payload, span, attributes, children⟩, earlier, later⟩, ancestors⟩ := view
  cases payload with
  | text run =>
    have written := (writes_runText source run).append (writes_runBreak inside run)
    rwa [Bool.and_true] at written
  | string value => exact .text value
  | emphasis level => exact .oneLine (not_mem_emphasis _ _ level)
  | codeSpan delimiter =>
    have fence : Writes true [.text (repeated delimiter '`')] :=
      .oneLine (not_mem_repeated (by decide) delimiter)
    have body : Writes (children.all (isOneLineCode source))
        (children.flatMap (codeSpanChild source)) := .flatMap (writes_codeSpanChild source)
    have whole := (fence.append body).append fence
    rwa [Bool.true_and, Bool.and_true] at whole
  | link target => exact .text "["
  | image target =>
    have described := (Writes.text "![").append (writes_imageDescription source children)
    have whole := described.append (writes_targetStrokes target)
    rwa [show isOneLine "![" = true from rfl, Bool.true_and, Bool.and_comm] at whole
  | autoLink url email => exact writes_autoLinkText source span url
  | rawHtml segments => exact .map_text segments
  | tableCell => exact .text " "
  | _ => contradiction

theorem writes_leave {view : View} (inline : view.node.kind.isBlock = false) :
    Writes (isOneLineCall (view, .leave)) (leave view).strokes := by
  obtain ⟨source, ⟨⟨payload, span, attributes, children⟩, earlier, later⟩, ancestors⟩ := view
  cases payload with
  | emphasis level => exact .oneLine (not_mem_emphasis _ _ level)
  | link target => exact writes_targetStrokes target
  | tableCell => exact .text " |"
  | text | string | codeSpan | image | autoLink | rawHtml => exact .nil
  | _ => contradiction

end Rules

section Visits

variable {renderer : Renderer} {place : Place} {visit : View × Phase}

theorem within_of_mem {view : View} (around : place ∈ view.ancestors) :
    view.within place.node.kind = true := by
  unfold View.within View.ancestor?
  rw [List.find?_isSome]
  exact ⟨place, around, by simp⟩

theorem complaint_of_inline (inline : visit.1.node.kind.isBlock = false) :
    ruleSet.complaint visit = none := by
  obtain ⟨view, phase⟩ := visit
  have item : view.node.kind ≠ .listItem := fun same => by simp [same, Kind.isBlock] at inline
  have head : view.node.kind ≠ .tableHead := fun same => by simp [same, Kind.isBlock] at inline
  cases phase with
  | enter => simp [RuleSet.complaint, ruleSet, reply, next_enter, View.isStrayItem, item]
  | leave =>
    simp [RuleSet.complaint, ruleSet, reply, next_leave, View.isStrayItem, View.isStrayHead, item,
      head]

theorem visit_of_inline (inline : visit.1.node.kind.isBlock = false) (page : Page) :
    renderer.visit ruleSet page visit = (page.applyAll (reply visit.1 visit.2).strokes).1 := by
  obtain ⟨view, phase⟩ := visit
  cases phase with
  | enter => rfl
  | leave =>
    have gapless (onNewLine : Bool) : renderer.gapStrokes view onNewLine = [] := by
      unfold Renderer.gapStrokes
      split
      · rfl
      · simp [show view.node.kind.isBlock = false from inline]
    rw [Renderer.visit, Renderer.strokes, gapless, List.append_nil]
    rfl

theorem writes_reply (inline : visit.1.node.kind.isBlock = false)
    (inside : visit.1.within .heading = true) :
    Writes (isOneLineCall visit) (reply visit.1 visit.2).strokes := by
  obtain ⟨view, phase⟩ := visit
  cases phase with
  | enter => exact writes_enter inline inside
  | leave => exact writes_leave inline

theorem writes_visits (renderer : Renderer) {visits : List (View × Phase)}
    (inline : ∀ visit ∈ visits, visit.1.node.kind.isBlock = false)
    (inside : ∀ visit ∈ visits, visit.1.within .heading = true) (page : Page) :
    ∃ more, (visits.foldl (renderer.visit ruleSet) page).text = page.text ++ more ∧
      isOneLine more = visits.all isOneLineCall := by
  induction visits generalizing page with
  | nil => exact ⟨"", by simp, rfl⟩
  | cons visit rest ih =>
    obtain ⟨next, front, applied, written, front_eq⟩ :=
      writes_reply (inline visit (by simp)) (inside visit (by simp)) page
    obtain ⟨more, writtenMore, more_eq⟩ := ih (fun other member => inline other (by simp [member]))
      (fun other member => inside other (by simp [member])) next
    refine ⟨front ++ more, ?_, ?_⟩
    · rw [List.foldl_cons, visit_of_inline (inline visit (by simp)), applied, writtenMore, written,
        String.append_assoc]
    · rw [isOneLine_append, front_eq, more_eq, List.all_cons]

theorem walk_heading (follows : renderer.Follows ruleSet) {source : Source}
    {ancestors : List Place} {earlier later : List Node} {level : Nat} {span : Span}
    {children : List Node} {page last : Page}
    (walked : renderer.walkAll source
      (⟨⟨.heading level, span, {}, children⟩, earlier, later⟩ :: ancestors) [] children
      ((page.write (repeated level '#')).write " ") = .done last)
    (kept : last.padding.levels = page.padding.levels) :
    renderer.walk source ancestors earlier later ⟨.heading level, span, {}, children⟩ page =
      .done (renderer.writeGap
        ⟨source, ⟨⟨.heading level, span, {}, children⟩, earlier, later⟩, ancestors⟩ last) := by
  let view : View := ⟨source, ⟨⟨.heading level, span, {}, children⟩, earlier, later⟩, ancestors⟩
  have entered : renderer.answer view .enter page =
      ((page.write (repeated level '#')).write " ", .ok .descend) := follows view .enter page
  have left : renderer.answer view .leave last = (last, .ok .descend) := follows view .leave last
  rw [Renderer.walk, entered]
  dsimp only
  rw [walked, Walked.andThen, Renderer.depart, left]
  exact congrArg (fun page => Walked.done (renderer.writeGap view page))
    (Page.truncate_of_levels kept)

end Visits

/-- A heading without attributes is written as number signs, a space and what is written for its
    children. It is one line just if no call of a rule for these writes a newline, and it reads
    back just if these do not end in number signs that close it. -/
theorem heading_reads_back_iff (renderer : Renderer) (priority : Int)
    (alone : DispatchTable.ofProviders [provider priority] = .ok renderer.table)
    (source : Source) (ancestors : List Place) (earlier later : List Node) (level : Nat)
    (levels : 1 ≤ level ∧ level ≤ 6) (span : Span) (children : List Node) (page : Page) :
    let place : Place := ⟨⟨.heading level, span, {}, children⟩, earlier, later⟩
    let visits := visitsAll hides source (place :: ancestors) [] children
    (∀ visit ∈ visits, visit.1.node.kind.isBlock = false) →
    ∃ (text : List Char) (last : Page),
      let line := List.replicate level '#' ++ ' ' :: text
      renderer.walkAll source (place :: ancestors) [] children
          ((page.write (repeated level '#')).write " ") = .done last ∧
      renderer.walk source ancestors earlier later place.node page =
          .done (renderer.writeGap ⟨source, place, ancestors⟩ last) ∧
      last.text = page.text ++ String.ofList line ∧
      ('\n' ∉ line ↔ ∀ visit ∈ visits, isOneLineCall visit = true) ∧
      (readHeading? line = some (level, text) ↔ ¬ClosesHeading text) := by
  intro place visits inline
  let start := (page.write (repeated level '#')).write " "
  have inside : ∀ visit ∈ visits, visit.1.within .heading = true := fun visit member =>
    within_of_mem (mem_ancestors_of_mem_visitsAll children (List.mem_cons_self ..) member)
  have calm : visits.findSome? ruleSet.complaint = none :=
    List.findSome?_eq_none_iff.mpr fun visit member => complaint_of_inline (inline visit member)
  have walked := Renderer.walkAll_eq_foldl (follows alone) source (place :: ancestors) [] children
    start calm
  have ends := renderer.walkAll_ends (follows alone) source (place :: ancestors) [] children start
  rw [show (visitsAll ruleSet.hides source (place :: ancestors) [] children).findSome?
    ruleSet.complaint = none from calm, walked] at ends
  have kept := ends.trans (show start.padding.levels = page.padding.levels by simp [start])
  obtain ⟨more, written, oneLine⟩ := writes_visits renderer inline inside start
  refine ⟨more.toList, _, walked, walk_heading (follows alone) walked kept, ?_, ?_,
    readHeading?_eq_iff levels⟩
  · refine written.trans ?_
    rw [Page.text_write, Page.text_write, ← String.toList_inj]
    simp [repeated]
  · rw [← List.all_eq_true, ← oneLine, isOneLine_iff]
    simp

def brokenHeading : List Node :=
  [.leaf (.text { segment := ⟨0, 1⟩, literal := "a", softBreak := true }) ⟨0, 1⟩,
    ⟨.emphasis 1, ⟨2, 5⟩, {}, [.leaf (.text { segment := ⟨3, 4⟩, literal := "b" }) ⟨3, 4⟩]⟩,
    .leaf (.text { segment := ⟨5, 8⟩, literal := " #" }) ⟨5, 8⟩]

theorem heading_reads_back_brokenHeading :
    let source := Source.ofString "a\n*b* \\#\n---"
    let place : Place := ⟨⟨.heading 2, ⟨0, 12⟩, {}, brokenHeading⟩, [], []⟩
    (∀ visit ∈ visitsAll hides source [place] [] brokenHeading,
      visit.1.node.kind.isBlock = false) ∧
    ∃ last, ({ table : Renderer }).walk source [] [] [] place.node {} = .done last ∧
      last.text = "## a *b* \\#" ∧
      readHeading? "## a *b* \\#".toList = some (2, "a *b* \\#".toList) := by
  intro source place
  have inline : ∀ visit ∈ visitsAll hides source [place] [] brokenHeading,
      visit.1.node.kind.isBlock = false := by decide
  obtain ⟨text, last, below, walked, written, _, reads⟩ := heading_reads_back_iff { table } 500
    (ofProviders_provider 500) source [] [] [] 2 (by decide) ⟨0, 12⟩ brokenHeading {} inline
  have shown : last.text = "## a *b* \\#" :=
    (congrArg (fun walked => walked.page.text) below).symm.trans (by decide)
  have line : List.replicate 2 '#' ++ ' ' :: text = "## a *b* \\#".toList := by
    rw [← shown, written]
    simp [Page.text]
  obtain rfl : text = "a *b* \\#".toList := by simpa using line
  have stays : ¬ClosesHeading "a *b* \\#".toList :=
    withoutClosing_eq_iff.mp (by decide)
  exact ⟨inline, last, walked, shown, reads.mpr stays⟩

def imageHeading : List Event :=
  [⟨.start (.heading 1 none [] []), ⟨0, 13⟩⟩, ⟨.start (.image "c" ""), ⟨0, 9⟩⟩, ⟨.text "a", ⟨2, 3⟩⟩,
    ⟨.softBreak, ⟨3, 4⟩⟩, ⟨.text "b", ⟨4, 5⟩⟩, ⟨.close, ⟨0, 9⟩⟩, ⟨.close, ⟨0, 13⟩⟩]

def signHeading : List Event :=
  [⟨.start (.heading 1 none [] []), ⟨0, 7⟩⟩, ⟨.text "a #", ⟨0, 3⟩⟩, ⟨.close, ⟨0, 7⟩⟩]

/-- The image keeps its newline, and the number sign is lost when the heading is read. -/
theorem heading_lost_imageHeading :
    (∃ conversion, Conversion.ofOptions .markdown {} = .ok conversion ∧
      conversion.convert (.ofString "![a\nb](c)\n===") imageHeading = .ok "# ![a\nb](c)" ∧
      conversion.convert (.ofString "a #\n===") signHeading = .ok "# a #") ∧
    readHeading? "# a #".toList = some (1, "a ".toList) :=
  ⟨⟨_, Conversion.ofOptions_markdown {}, rfl, rfl⟩, by decide⟩

end CanonicalMarkdown.Markdown
