import CanonicalMarkdown.Proofs.ConversionSafety
import CanonicalMarkdown.Proofs.Markdown.FenceReading

namespace CanonicalMarkdown

open Text

namespace Markdown

namespace Fence

/-- What a first line opens: the fence is the whole run at its start, and the info string is what
    stands behind it, without the white space around it. -/
def opened? (line : List Char) : Option (Fence × List Char) :=
  match line.head? with
  | none => none
  | some mark =>
    let fence : Fence := ⟨mark, run mark line⟩
    let info := Unicode.trim (line.drop fence.length)
    if (mark = '`' ∨ mark = '~') ∧ 3 ≤ fence.length ∧ ¬(mark = '`' ∧ '`' ∈ info) then
      some (fence, info)
    else none

variable {fence : Fence} {info : String} {lines : List String}

theorem Holds.run_eq_zero (holds : fence.Holds info lines) (backticks : fence.mark = '`') :
    run fence.mark info.toList = 0 := by
  rw [run_eq_zero_iff, backticks]
  exact fun first => holds.info backticks (List.mem_of_mem_head? first)

theorem Holds.opened?_line (holds : fence.Holds info lines)
    (trimmed : Unicode.trim info.toList = info.toList) :
    let surplus := run fence.mark info.toList
    opened? (fence.text ++ info).toList =
      some (⟨fence.mark, fence.length + surplus⟩, Unicode.trim (info.toList.drop surplus)) := by
  intro surplus
  have line : (fence.text ++ info).toList =
      List.replicate fence.length fence.mark ++ info.toList := by
    simp [Fence.text, repeated]
  have three := holds.three
  have first : (List.replicate fence.length fence.mark ++ info.toList).head? = some fence.mark := by
    obtain ⟨shorter, length⟩ : ∃ shorter, fence.length = shorter + 1 :=
      ⟨fence.length - 1, by omega⟩
    rw [length, List.replicate_succ, List.cons_append, List.head?_cons]
  have behind : (List.replicate fence.length fence.mark ++ info.toList).drop
      (fence.length + surplus) = info.toList.drop surplus := by
    rw [← List.drop_drop, List.drop_left' (by simp)]
  have clean : ¬(fence.mark = '`' ∧ '`' ∈ Unicode.trim (info.toList.drop surplus)) := by
    rintro ⟨backticks, member⟩
    have none : surplus = 0 := holds.run_eq_zero backticks
    rw [none, List.drop_zero, trimmed] at member
    exact holds.info backticks member
  have enough : 3 ≤ fence.length + surplus := Nat.le_add_right_of_le three
  rw [line, opened?, first]
  dsimp only
  rw [run_replicate, behind, if_pos ⟨holds.mark, enough, clean⟩]

theorem lengthened_eq_iff {text : List Char} (trimmed : Unicode.trim text = text) {surplus : Nat} :
    (⟨fence.mark, fence.length + surplus⟩ : Fence) = fence ∧
      Unicode.trim (text.drop surplus) = text ↔ surplus = 0 := by
  constructor
  · rintro ⟨same, _⟩
    exact Nat.add_eq_left.mp (congrArg Fence.length same)
  · rintro rfl
    exact ⟨rfl, trimmed⟩

theorem head?_eq_mark_choose_iff (closing : List Char) (content : List String) (info : String) :
    info.toList.head? = some (choose closing content info).mark ↔
      info.toList.head? = some '~' ∧ ((found closing).mark = '~' ∨ '`' ∈ info.toList) := by
  rw [mark_choose]
  rcases mark_found closing with backticks | tildes
  · by_cases member : '`' ∈ info.toList
    · simp [backticks, member]
    · have other : info.toList.head? ≠ some '`' :=
        fun first => member (List.mem_of_mem_head? first)
      simp [backticks, member, other]
  · simp [tildes]

end Fence

theorem text_fencedCode (view : View) (info : String) (lines : List String) (contentEnd : Nat)
    (fenced : view.node.payload = .fencedCodeBlock info lines contentEnd) (start : Page) :
    let fence := fenceOf view info lines contentEnd
    ∃ opened page content, start.answer (rule view .enter start) = (opened, .ok .descend) ∧
      opened.answer (rule view .leave opened) = (page, .ok .descend) ∧
      page.text = start.text ++ (fence.text ++ info ++ "\n" ++ content ++ fence.text) := by
  intro fence
  obtain ⟨opened, enters, _⟩ := Page.applyAll_of_levelsAfter
    (keepsLevels_fenceOpening fence info lines start.padding.levels)
  obtain ⟨page, leaves, _⟩ := Page.applyAll_of_levelsAfter
    (keepsLevels_fenceClosing fence lines opened.padding.levels)
  have texts : fenceOpening fence info lines = [fence.text, info, "\n"].map .text ++
      lines.flatMap fun line => [linePadding line, .text line] := rfl
  obtain ⟨front, begun⟩ := Page.text_of_texts (texts ▸ enters)
  have whole : fenceClosing fence lines =
      endLine lines.getLast? ++ [.padding] ++ [fence.text].map .text := by simp [fenceClosing]
  obtain ⟨back, ended⟩ := Page.text_of_append_texts (whole ▸ leaves)
  refine ⟨opened, page, front ++ back, ?_, ?_, ?_⟩
  · simp only [rule, Rule.ofReplies, enter, fenced, Page.answer, Reply.descend]
    rw [enters]
  · simp only [rule, Rule.ofReplies, leave, fenced, Page.answer, Reply.descend]
    rw [leaves]
  · rw [ended, begun]
    simp [String.append_assoc]

open Fence

/-- The first line of a fenced code block opens the fence written and gives the info string back
    unless that starts with a tilde and the fence is made of tildes, as in the source or because the
    info string holds a backtick. Only then the fence written at the end is too short for the one
    that is read. -/
theorem fenceOpening_reads_back_iff (view : View) (info : String) (lines : List String)
    (contentEnd : Nat) (fenced : view.node.payload = .fencedCodeBlock info lines contentEnd)
    (trimmed : Unicode.trim info.toList = info.toList) (oneLine : '\n' ∉ info.toList)
    (start : Page) :
    let closing := (view.source.slice ⟨contentEnd, view.node.span.stop⟩).toList
    let fence := fenceOf view info lines contentEnd
    let clashes := info.toList.head? = some '~' ∧
      ((found closing).mark = '~' ∨ '`' ∈ info.toList)
    ∃ opened page content, start.answer (rule view .enter start) = (opened, .ok .descend) ∧
      opened.answer (rule view .leave opened) = (page, .ok .descend) ∧
      page.text = start.text ++ (fence.text ++ info ++ "\n" ++ content ++ fence.text) ∧
      ∃ read shown, opened? (firstLine
          (fence.text ++ info ++ "\n" ++ content ++ fence.text).toList) = some (read, shown) ∧
        (read = fence ∧ shown = info.toList ↔ ¬clashes) ∧
        (read.closes fence.text.toList = true ↔ ¬clashes) := by
  intro closing fence clashes
  have holds : fence.Holds info lines := holds_choose closing lines info
  obtain ⟨opened, page, content, enters, leaves, written⟩ :=
    text_fencedCode view info lines contentEnd fenced start
  refine ⟨opened, page, content, enters, leaves, written, ?_⟩
  have line : firstLine (fence.text ++ info ++ "\n" ++ content ++ fence.text).toList =
      (fence.text ++ info).toList := by
    have split : (fence.text ++ info ++ "\n" ++ content ++ fence.text).toList =
        (fence.text ++ info).toList ++ '\n' :: (content ++ fence.text).toList := by
      simp
    have whole : '\n' ∉ (fence.text ++ info).toList := by
      rw [String.toList_append, List.mem_append]
      exact not_or_intro holds.oneLine oneLine
    rw [split, firstLine_append_newline whole]
  have exact_iff : run fence.mark info.toList = 0 ↔ ¬clashes :=
    run_eq_zero_iff.trans (not_congr (head?_eq_mark_choose_iff closing lines info))
  refine ⟨_, _, (congrArg opened? line).trans (holds.opened?_line trimmed), ?_, ?_⟩
  · rw [lengthened_eq_iff trimmed, exact_iff]
  · rw [holds.closes_text_iff, ← exact_iff]
    omega

theorem fenceOpening_reads_back_laterTilde :
    let source : Source := ⟨" > ~~~~".toList⟩
    let view : View :=
      ⟨source, ⟨.leaf (.fencedCodeBlock "b` ~" ["~~~~~\n"] 0) ⟨0, 7⟩, [], []⟩, []⟩
    Unicode.trim "b` ~".toList = "b` ~".toList ∧ '\n' ∉ "b` ~".toList ∧
    ∃ opened page content, ({} : Page).answer (rule view .enter {}) = (opened, .ok .descend) ∧
      opened.answer (rule view .leave opened) = (page, .ok .descend) ∧
      page.text = "~~~~~~b` ~\n" ++ content ++ "~~~~~~" ∧
      opened? (firstLine ("~~~~~~b` ~\n" ++ content ++ "~~~~~~").toList) =
        some (⟨'~', 6⟩, "b` ~".toList) ∧
      Fence.closes ⟨'~', 6⟩ "~~~~~~".toList = true := by
  intro source view
  have trimmed : Unicode.trim "b` ~".toList = "b` ~".toList := by decide +kernel
  have oneLine : '\n' ∉ "b` ~".toList := by decide +kernel
  refine ⟨trimmed, oneLine, ?_⟩
  obtain ⟨opened, page, content, enters, leaves, written, read, shown, line, reads_iff,
    closes_iff⟩ :=
    fenceOpening_reads_back_iff view "b` ~" ["~~~~~\n"] 0 rfl trimmed oneLine {}
  have fence : fenceOf view "b` ~" ["~~~~~\n"] 0 = ⟨'~', 6⟩ := by decide +kernel
  have first : "b` ~".toList.head? ≠ some '~' := by decide +kernel
  obtain ⟨rfl, rfl⟩ := reads_iff.mpr fun clashes => first clashes.1
  have closed := closes_iff.mpr fun clashes => first clashes.1
  have front : Fence.text ⟨'~', 6⟩ ++ "b` ~" ++ "\n" = "~~~~~~b` ~\n" := by decide +kernel
  have text : Fence.text ⟨'~', 6⟩ = "~~~~~~" := by decide +kernel
  have blank : ({} : Page).text = "" := rfl
  rw [fence, front, text] at written line
  rw [blank, String.empty_append] at written
  rw [fence, text] at closed
  exact ⟨opened, page, content, enters, leaves, written, line, closed⟩

def tildeInfo : List Event :=
  [⟨.start (.fencedCode "~a"), ⟨0, 12⟩⟩, ⟨.text "x\n", ⟨7, 9⟩⟩, ⟨.close, ⟨0, 12⟩⟩]

/-- The info string loses its tilde to the fence, which the last line then does not close. -/
theorem fence_lengthened_tildeInfo :
    (Document.ofEvents (.ofString "~~~ ~a\nx\n~~~") true tildeInfo).root.children.map
      Node.payload = [.fencedCodeBlock "~a" ["x\n"] 9] ∧
    Unicode.trim "~a".toList = "~a".toList ∧ '\n' ∉ "~a".toList ∧
    (∃ conversion, Conversion.ofOptions .markdown {} = .ok conversion ∧
      conversion.convert (.ofString "~~~ ~a\nx\n~~~") tildeInfo = .ok "~~~~a\nx\n~~~") ∧
    opened? (firstLine "~~~~a\nx\n~~~".toList) = some (⟨'~', 4⟩, ['a']) ∧
    Fence.closes ⟨'~', 4⟩ "~~~".toList = false :=
  ⟨rfl, by decide +kernel, by decide +kernel, ⟨_, Conversion.ofOptions_markdown {}, rfl⟩,
    by decide +kernel, by decide +kernel⟩

end Markdown

end CanonicalMarkdown
