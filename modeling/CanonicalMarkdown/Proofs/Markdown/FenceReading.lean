import CanonicalMarkdown.Proofs.Entries
import CanonicalMarkdown.Proofs.Markdown.TidyRules
import CanonicalMarkdown.Text.Lines
import CanonicalMarkdown.Proofs.VisitedPage

namespace CanonicalMarkdown

open Text

namespace Text

def lastNewline (lines : List String) : String :=
  if lines.getLast?.any fun line => !endsLine line then "\n" else ""

theorem lastNewline_cons {line : String} {rest : List String} (some : rest ≠ []) :
    lastNewline (line :: rest) = lastNewline rest := by
  obtain ⟨next, more, rfl⟩ := List.exists_cons_of_ne_nil some
  simp [lastNewline, List.getLast?_cons]

theorem toList_lastLine {line : String} (last : isOneLine line = true ∨ isWholeLine line = true) :
    line.toList ++ (lastNewline [line]).toList = firstLine line.toList ++ ['\n'] := by
  rcases last with oneLine | whole
  · have free := isOneLine_iff.mp oneLine
    have lacking : lastNewline [line] = "\n" := by
      simp [lastNewline, Page.endsLine_of_not_mem free]
    rw [lacking, firstLine_of_not_mem free]
    rfl
  · obtain ⟨body, split, free⟩ := isWholeLine_iff.mp whole
    have complete : lastNewline [line] = "" := by simp [lastNewline, endsLine, split]
    rw [complete, split, firstLine_append_newline free]
    simp

theorem toList_closedLines {lines : List String} (areLines : areLines lines = true) :
    (String.join lines ++ lastNewline lines).toList =
      (lines.map fun line => firstLine line.toList).flatMap (· ++ ['\n']) := by
  induction lines with
  | nil => rfl
  | cons line rest ih =>
    have joined : (String.join (line :: rest)).toList =
        line.toList ++ (String.join rest).toList := by
      simp
    rw [String.toList_append, joined, List.map_cons, List.flatMap_cons]
    by_cases none : rest = []
    · subst none
      simpa using toList_lastLine (areLines_head areLines)
    · obtain ⟨whole, more⟩ := areLines_cons none areLines
      obtain ⟨body, split, free⟩ := isWholeLine_iff.mp whole
      rw [lastNewline_cons none, List.append_assoc, ← String.toList_append, ih more, split,
        firstLine_append_newline free]

theorem splitOn_closedLines {texts : List (List Char)} (oneLine : ∀ text ∈ texts, '\n' ∉ text)
    (last : List Char) :
    (texts.flatMap (· ++ ['\n']) ++ last).splitOn '\n' = texts ++ last.splitOn '\n' := by
  induction texts with
  | nil => rfl
  | cons text rest ih =>
    have split : (text :: rest).flatMap (· ++ ['\n']) ++ last =
        text ++ '\n' :: (rest.flatMap (· ++ ['\n']) ++ last) := by
      simp
    rw [split, splitOn_append_newline, splitOn_of_not_mem (oneLine text (by simp)),
      ih fun other member => oneLine other (by simp [member])]
    rfl

end Text

namespace Markdown

namespace Fence

/-- A line that ends the code block: at most three spaces, a run of the mark no shorter than the
    fence, and nothing but spaces behind it. -/
def closes (fence : Fence) (line : List Char) : Bool :=
  let marks := line.dropWhile (· = ' ')
  decide ((line.takeWhile (· = ' ')).length ≤ 3) && decide (fence.length ≤ run fence.mark marks) &&
    (marks.dropWhile (· = fence.mark)).all (· = ' ')

/-- Reads lines up to the first that ends the code block: the content, that line, and the lines
    behind it. -/
def read (fence : Fence) :
    List (List Char) → Option (List (List Char) × List Char × List (List Char))
  | [] => none
  | line :: rest =>
    if fence.closes line then some ([], line, rest)
    else (fence.read rest).map fun found => (line :: found.1, found.2)

/-- The fence can stand around the content, and the info string behind it. -/
structure Holds (fence : Fence) (info : String) (lines : List String) : Prop where
  mark : fence.mark = '`' ∨ fence.mark = '~'
  three : 3 ≤ fence.length
  info : fence.mark = '`' → '`' ∉ info.toList
  content : ∀ line ∈ lines, run fence.mark (line.toList.dropWhile (· = ' ')) < fence.length

/-- The fence stands in the slice, with nothing but container marks before it. -/
def StandsIn (fence : Fence) (closing : List Char) : Prop :=
  ∃ marks rest, closing = marks ++ (List.replicate fence.length fence.mark ++ rest) ∧
    (∀ c ∈ marks, isContainerMark c = true) ∧ rest.head? ≠ some fence.mark

theorem read_append {fence : Fence} {content : List (List Char)} {closing : List Char}
    (inside : ∀ line ∈ content, fence.closes line = false) (ends : fence.closes closing = true)
    (rest : List (List Char)) :
    fence.read (content ++ closing :: rest) = some (content, closing, rest) := by
  induction content with
  | nil => simp [read, ends]
  | cons line more ih =>
    rw [List.cons_append, read, inside line (by simp),
      ih fun other member => inside other (by simp [member])]
    rfl

section Run

variable {mark : Char}

theorem run_le_append (mark : Char) (front rest : List Char) :
    run mark front ≤ run mark (front ++ rest) := by
  unfold run
  rw [List.takeWhile_append]
  split
  · simp_all
  · exact Nat.le_refl _

theorem run_eq_zero_iff {text : List Char} : run mark text = 0 ↔ text.head? ≠ some mark := by
  cases text with
  | nil => simp [run]
  | cons c rest => by_cases same : c = mark <;> simp [run, same]

theorem run_replicate (mark : Char) (length : Nat) (rest : List Char) :
    run mark (List.replicate length mark ++ rest) = length + run mark rest := by
  unfold run
  rw [List.takeWhile_append_of_pos (by simp)]
  simp

theorem run_replicate_append {rest : List Char} (stops : rest.head? ≠ some mark) (length : Nat) :
    run mark (List.replicate length mark ++ rest) = length := by
  rw [run_replicate, run_eq_zero_iff.mpr stops, Nat.add_zero]

theorem run_firstLine_le (mark : Char) (line : List Char) :
    run mark ((firstLine line).dropWhile (· = ' ')) ≤ run mark (line.dropWhile (· = ' ')) := by
  have split : line = firstLine line ++ line.dropWhile (· ≠ '\n') :=
    List.takeWhile_append_dropWhile.symm
  by_cases blank : ((firstLine line).dropWhile (· = ' ')).isEmpty
  · rw [List.isEmpty_iff.mp blank]
    exact Nat.zero_le _
  · have dropped : line.dropWhile (· = ' ') =
        (firstLine line).dropWhile (· = ' ') ++ line.dropWhile (· ≠ '\n') :=
      (congrArg (List.dropWhile _) split).trans (by rw [List.dropWhile_append, if_neg blank])
    rw [dropped]
    exact run_le_append mark _ _

theorem foldl_max_lt {runs : List Nat} {least bound : Nat} :
    runs.foldl max least < bound ↔ least < bound ∧ ∀ length ∈ runs, length < bound := by
  induction runs generalizing least with
  | nil => simp
  | cons length rest ih => rw [List.foldl_cons, ih, Nat.max_lt, List.forall_mem_cons, and_assoc]

theorem longestRun_lt {content : List String} {bound : Nat} :
    longestRun mark content < bound ↔ 0 < bound ∧
      ∀ line ∈ content, run mark (line.toList.dropWhile (· = ' ')) < bound := by
  simp [longestRun, foldl_max_lt]

end Run

theorem three_le_found (closing : List Char) : 3 ≤ (found closing).length := by
  unfold found
  dsimp only
  split
  · split
    · exact Nat.le_refl 3
    · rename_i long
      exact Nat.le_of_not_lt long
  · split
    · exact Nat.le_refl 3
    · rename_i long
      exact Nat.le_of_not_lt long
  · exact Nat.le_refl 3

theorem mark_choose (closing : List Char) (content : List String) (info : String) :
    (choose closing content info).mark =
      if (found closing).mark = '`' ∧ '`' ∈ info.toList then '~' else (found closing).mark := rfl

theorem length_choose (closing : List Char) (content : List String) (info : String) :
    let longest := longestRun (choose closing content info).mark content
    longest < (choose closing content info).length ∧
      (found closing).length ≤ (choose closing content info).length := by
  intro longest
  have length : (choose closing content info).length =
      if (found closing).length ≤ longest then longest + 1 else (found closing).length := rfl
  rw [length]
  split <;> omega

/-- Whatever the slice, the content and the info string are, the fence chosen can stand there. -/
theorem holds_choose (closing : List Char) (content : List String) (info : String) :
    (choose closing content info).Holds info content := by
  obtain ⟨longer, atLeast⟩ := length_choose closing content info
  refine ⟨?_, Nat.le_trans (three_le_found closing) atLeast, ?_, (longestRun_lt.mp longer).2⟩
  · rw [mark_choose]
    split
    · exact .inr rfl
    · exact mark_found closing
  · rw [mark_choose]
    split
    · intro tilde
      contradiction
    · rename_i admissible
      exact fun backtick member => admissible ⟨backtick, member⟩

theorem head?_firstLine {rest : List Char} {mark : Char} (stops : rest.head? ≠ some mark) :
    (firstLine rest).head? ≠ some mark := by
  cases rest with
  | nil => simp [firstLine]
  | cons c more =>
    by_cases newline : c = '\n'
    · simp [firstLine, newline]
    · simpa [firstLine, newline] using stops

theorem found_of_standsIn {fence : Fence} {closing : List Char} (stands : fence.StandsIn closing)
    (mark : fence.mark = '`' ∨ fence.mark = '~') (three : 3 ≤ fence.length) :
    found closing = fence := by
  obtain ⟨marks, rest, rfl, skipped, stops⟩ := stands
  obtain ⟨c, length⟩ := fence
  have three : 3 ≤ length := three
  obtain ⟨more, rfl⟩ : ∃ more, length = more + 1 := ⟨length - 1, by omega⟩
  have visible : isContainerMark c = false := by rcases mark with rfl | rfl <;> rfl
  have marksOneLine : '\n' ∉ marks := fun member => absurd (skipped _ member) (by decide)
  have runOneLine : '\n' ∉ List.replicate (more + 1) c := by
    rcases mark with rfl | rfl <;> simp
  have line : (firstLine (marks ++ (List.replicate (more + 1) c ++ rest))).dropWhile
      isContainerMark = c :: (List.replicate more c ++ firstLine rest) := by
    rw [firstLine_append marksOneLine, firstLine_append runOneLine,
      List.dropWhile_append_of_pos skipped, List.replicate_succ, List.cons_append,
      List.dropWhile_cons_of_neg (by simp [visible])]
  have long : run c (c :: (List.replicate more c ++ firstLine rest)) = more + 1 :=
    run_replicate_append (head?_firstLine stops) (more + 1)
  have enough : ¬more + 1 < 3 := Nat.not_lt.mpr three
  rcases mark with rfl | rfl
  all_goals simp only [found, line, List.head?_cons, long, if_neg enough]

theorem choose_of_standsIn {fence : Fence} {closing : List Char} {content : List String}
    {info : String} (stands : fence.StandsIn closing) (holds : fence.Holds info content) :
    choose closing content info = fence := by
  have found := found_of_standsIn stands holds.mark holds.three
  have marked : ¬(fence.mark = '`' ∧ '`' ∈ info.toList) :=
    fun both => holds.info both.1 both.2
  have longer : longestRun fence.mark content < fence.length :=
    longestRun_lt.mpr ⟨by have := holds.three; omega, holds.content⟩
  simp only [choose, found, if_neg marked, if_neg (Nat.not_le.mpr longer)]

variable {fence : Fence} {info : String} {lines : List String}

theorem Holds.oneLine (holds : fence.Holds info lines) : '\n' ∉ fence.text.toList := by
  refine not_mem_repeated ?_ fence.length
  rcases holds.mark with mark | mark <;> rw [mark] <;> decide

theorem Holds.closes_line (holds : fence.Holds info lines) {line : String} (member : line ∈ lines) :
    fence.closes (firstLine line.toList) = false := by
  have short := Nat.lt_of_le_of_lt (run_firstLine_le fence.mark line.toList)
    (holds.content line member)
  simp [closes, Nat.not_le.mpr short]

theorem Holds.closes_text_iff (holds : fence.Holds info lines) (length : Nat) :
    (⟨fence.mark, length⟩ : Fence).closes fence.text.toList = true ↔ length ≤ fence.length := by
  have visible : fence.mark ≠ ' ' := by rcases holds.mark with mark | mark <;> rw [mark] <;> decide
  have kept : (List.replicate fence.length fence.mark).dropWhile (· = ' ') =
      List.replicate fence.length fence.mark := by
    rw [List.dropWhile_replicate]
    simp [visible]
  have unindented : (List.replicate fence.length fence.mark).takeWhile (· = ' ') = [] := by
    rw [List.takeWhile_replicate]
    simp [visible]
  simp [closes, Fence.text, repeated, kept, unindented, run]

theorem Holds.closes_text (holds : fence.Holds info lines) :
    fence.closes fence.text.toList = true :=
  (holds.closes_text_iff fence.length).mpr (Nat.le_refl _)

end Fence

theorem plainText_contentLines (lines : List String) (rest : List Stroke) :
    plainText (entries [] ((lines.flatMap fun line => [linePadding line, .text line]) ++ rest)) =
      String.join lines ++ plainText (entries [] rest) := by
  induction lines with
  | nil => simp
  | cons line more ih =>
    rw [List.flatMap_cons, List.append_assoc, String.join_cons, String.append_assoc, ← ih]
    unfold linePadding
    split <;>
      simp [entries, plainText_padding, plainText_text, Padding.text, Unicode.trimEnd,
        Unicode.dropEndWhile]

theorem plainText_endLine (lines : List String) (rest : List Stroke) :
    plainText (entries [] (endLine lines.getLast? ++ rest)) =
      lastNewline lines ++ plainText (entries [] rest) := by
  unfold endLine lastNewline
  split
  · exact plainText_text "\n" (entries [] rest)
  · simp

theorem plainText_fencedCode (fence : Fence) (info : String) (lines : List String) :
    plainText (entries [] (fenceOpening fence info lines ++ fenceClosing fence lines)) =
      fence.text ++ info ++ "\n" ++ (String.join lines ++ lastNewline lines ++ fence.text) := by
  have content := plainText_contentLines lines (fenceClosing fence lines)
  have closing := plainText_endLine lines [.padding, .text fence.text]
  have last : plainText (entries [] [.padding, .text fence.text]) = fence.text := by
    simp [entries, plainText, Entry.written, Padding.text]
  have whole : plainText (entries [] (fenceOpening fence info lines ++ fenceClosing fence lines)) =
      fence.text ++ (info ++ ("\n" ++ (String.join lines ++
        plainText (entries [] (fenceClosing fence lines))))) := by
    rw [← content]
    simp only [fenceOpening, List.cons_append, entries, plainText_text]
  rw [whole, fenceClosing, closing, last]
  simp only [String.append_assoc]

theorem read_fencedCode {fence : Fence} {info : String} {lines : List String}
    (holds : fence.Holds info lines) (areLines : areLines lines = true)
    (after : List (List Char)) :
    fence.read
        ((String.join lines ++ lastNewline lines ++ fence.text).toList.splitOn '\n' ++ after) =
      some (lines.map fun line => firstLine line.toList, fence.text.toList, after) := by
  have oneLine : ∀ text ∈ lines.map fun line => firstLine line.toList, '\n' ∉ text := by
    intro text member
    obtain ⟨line, _, rfl⟩ := List.mem_map.mp member
    exact not_mem_firstLine line.toList
  have inside : ∀ text ∈ lines.map fun line => firstLine line.toList,
      fence.closes text = false := by
    intro text member
    obtain ⟨line, among, rfl⟩ := List.mem_map.mp member
    exact holds.closes_line among
  rw [String.toList_append, toList_closedLines areLines, splitOn_closedLines oneLine,
    splitOn_of_not_mem holds.oneLine, List.append_assoc]
  exact Fence.read_append inside holds.closes_text after

/-- The fence written can stand around the content and is the one in the source if that one can.
    Without padding the code block is the opening, the content and the fence once more, and behind
    the opening the content reads back up to that fence. The opening of a one-line info string is
    the first line. -/
theorem fencedCode_reads_back (view : View) (info : String) (lines : List String)
    (contentEnd : Nat) (fenced : view.node.payload = .fencedCodeBlock info lines contentEnd)
    (areLines : areLines lines = true) (start : Page) (unpadded : start.padding.levels = [])
    (quiet : start.padding.verbose = false) :
    let closing := (view.source.slice ⟨contentEnd, view.node.span.stop⟩).toList
    let fence := fenceOf view info lines contentEnd
    let body := String.join lines ++ lastNewline lines ++ fence.text
    fence.Holds info lines ∧
    (∀ found : Fence, found.StandsIn closing → found.Holds info lines → fence = found) ∧
    (∃ opened page, start.answer (rule view .enter start) = (opened, .ok .descend) ∧
      opened.answer (rule view .leave opened) = (page, .ok .descend) ∧
      page.text = start.text ++ (fence.text ++ info ++ "\n" ++ body)) ∧
    ('\n' ∉ info.toList → (fence.text ++ info ++ "\n" ++ body).toList.splitOn '\n' =
      (fence.text ++ info).toList :: body.toList.splitOn '\n') ∧
    ∀ after, fence.read (body.toList.splitOn '\n' ++ after) =
      some (lines.map fun line => firstLine line.toList, fence.text.toList, after) := by
  intro closing fence body
  have holds : fence.Holds info lines := Fence.holds_choose closing lines info
  refine ⟨holds, fun found stands holds => Fence.choose_of_standsIn stands holds, ?_, ?_,
    read_fencedCode holds areLines⟩
  · obtain ⟨opened, enters, levels⟩ := Page.applyAll_of_levelsAfter
      (keepsLevels_fenceOpening fence info lines start.padding.levels)
    obtain ⟨page, leaves, _⟩ := Page.applyAll_of_levelsAfter
      (keepsLevels_fenceClosing fence lines opened.padding.levels)
    have whole : start.applyAll (fenceOpening fence info lines ++ fenceClosing fence lines) =
        (page, none) := by
      simp only [Page.applyAll_append, enters, leaves]
    have text := Page.text_applyAll quiet
      (fenceOpening fence info lines ++ fenceClosing fence lines)
    rw [whole, unpadded, plainText_fencedCode] at text
    refine ⟨opened, page, ?_, ?_, text⟩
    · simp only [rule, Rule.ofReplies, enter, fenced, Page.answer, Reply.descend]
      rw [enters]
    · simp only [rule, Rule.ofReplies, leave, fenced, Page.answer, Reply.descend]
      rw [leaves]
  · intro oneLine
    have opening : '\n' ∉ (fence.text ++ info).toList := by
      rw [String.toList_append, List.mem_append]
      exact not_or_intro holds.oneLine oneLine
    have split : (fence.text ++ info ++ "\n" ++ body).toList =
        (fence.text ++ info).toList ++ '\n' :: body.toList := by
      simp
    rw [split, splitOn_append_newline, splitOn_of_not_mem opening]
    rfl

theorem fencedCode_reads_back_tildes :
    let source : Source := ⟨" > ~~~~".toList⟩
    let lines := ["~~~\n", "   ```\n", "b"]
    let view : View := ⟨source, ⟨.leaf (.fencedCodeBlock "a`b" lines 0) ⟨0, 7⟩, [], []⟩, []⟩
    fenceOf view "a`b" lines 0 = ⟨'~', 4⟩ ∧
    (∃ opened page, ({} : Page).answer (rule view .enter {}) = (opened, .ok .descend) ∧
      opened.answer (rule view .leave opened) = (page, .ok .descend) ∧
      page.text = "~~~~a`b\n~~~\n   ```\nb\n~~~~") ∧
    Fence.read ⟨'~', 4⟩ ("~~~\n   ```\nb\n~~~~".toList.splitOn '\n') =
      some (["~~~".toList, "   ```".toList, "b".toList], "~~~~".toList, []) := by
  intro source lines view
  obtain ⟨_, kept, written, _, reads⟩ :=
    fencedCode_reads_back view "a`b" lines 0 rfl (by decide) {} rfl rfl
  have fence : fenceOf view "a`b" lines 0 = ⟨'~', 4⟩ :=
    kept ⟨'~', 4⟩ ⟨[' ', '>', ' '], [], by decide +kernel, by simp [Fence.isContainerMark], by simp⟩
      ⟨.inr rfl, by decide, by decide, by decide⟩
  rw [fence] at written reads
  have body : String.join lines ++ lastNewline lines ++ Fence.text ⟨'~', 4⟩ =
      "~~~\n   ```\nb\n~~~~" := by decide +kernel
  have read := reads []
  rw [body, List.append_nil] at read
  exact ⟨fence, written, read⟩

end Markdown

end CanonicalMarkdown
