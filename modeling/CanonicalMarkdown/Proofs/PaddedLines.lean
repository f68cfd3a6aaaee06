import CanonicalMarkdown.Proofs.Indentation
import CanonicalMarkdown.Proofs.PaddingLevels

namespace CanonicalMarkdown

open Text

/-- Strokes that lead from one state of the line to another: what ends a line goes no further, and
    before anything else comes the padding. -/
inductive Tidy : LineState → List Stroke → LineState → Prop
  | nil {line : LineState} : Tidy line [] line
  | text {text : String} {rest : List Stroke} {final : LineState} :
      '\n' ∉ text.toList → Tidy .begun rest final → Tidy .begun (.text text :: rest) final
  | endLine {text : String} {body : List Char} {rest : List Stroke} {final : LineState} :
      text.toList = body ++ ['\n'] → '\n' ∉ body → Tidy .ended rest final →
      Tidy .begun (.text text :: rest) final
  | padding {rest : List Stroke} {final : LineState} :
      Tidy .begun rest final → Tidy .ended (.padding :: rest) final
  | blankLine {rest : List Stroke} {final : LineState} :
      Tidy .ended rest final → Tidy .ended (.blankPadding :: .text "\n" :: rest) final
  | push {text level : String} {rest : List Stroke} {final : LineState} :
      text ≠ "" → '\n' ∉ text.toList → '\n' ∉ level.toList → Tidy .begun rest final →
      Tidy .begun (.text text :: .push level :: rest) final
  | pop {line final : LineState} {rest : List Stroke} :
      Tidy line rest final → Tidy line (.pop :: rest) final

theorem Tidy.newline {rest : List Stroke} {final : LineState} (tidy : Tidy .ended rest final) :
    Tidy .begun (.text "\n" :: rest) final := by
  have split : "\n".toList = [] ++ ['\n'] := rfl
  exact .endLine split (by simp) tidy

theorem Tidy.append {line middle final : LineState} {first second : List Stroke}
    (left : Tidy line first middle) (right : Tidy middle second final) :
    Tidy line (first ++ second) final := by
  induction left with
  | nil => exact right
  | text oneLine _ ih => exact .text oneLine (ih right)
  | endLine split oneLine _ ih => exact .endLine split oneLine (ih right)
  | padding _ ih => exact .padding (ih right)
  | blankLine _ ih => exact .blankLine (ih right)
  | push some oneLine levelOneLine _ ih => exact .push some oneLine levelOneLine (ih right)
  | pop _ ih => exact .pop (ih right)

namespace Page

theorem text_writeAll (page : Page) (texts : List String) :
    (page.writeAll texts).text = page.text ++ String.join texts := by
  unfold writeAll
  induction texts generalizing page with
  | nil => simp
  | cons text rest ih =>
    rw [List.foldl_cons, ih, text_write]
    simp [String.append_assoc]

theorem onNewLine_write {text : String} (some : text ≠ "") (page : Page) :
    (page.write text).onNewLine = endsLine text := by
  have written : text.isEmpty = false := by simpa using some
  simp [write, written, onNewLine]

theorem endsLine_of_not_mem {text : String} (oneLine : '\n' ∉ text.toList) :
    endsLine text = false := by
  unfold endsLine
  rw [decide_eq_false_iff_not]
  intro last
  exact oneLine (List.mem_of_getLast? last)

theorem onNewLine_writeAll {texts : List String} {page : Page}
    (oneLine : ∀ text ∈ texts, '\n' ∉ text.toList)
    (onNewLine : (page.writeAll texts).onNewLine = true) :
    page.onNewLine = true ∧ String.join texts = "" := by
  unfold writeAll at onNewLine
  induction texts generalizing page with
  | nil => exact ⟨onNewLine, rfl⟩
  | cons text rest ih =>
    rw [List.foldl_cons] at onNewLine
    obtain ⟨before, empty⟩ := ih (fun other member => oneLine other (by simp [member])) onNewLine
    by_cases nothing : text = ""
    · subst nothing
      exact ⟨before, by simpa using empty⟩
    · rw [onNewLine_write nothing, endsLine_of_not_mem (oneLine text (by simp))] at before
      contradiction

theorem text_of_onNewLine {page : Page} (onNewLine : page.onNewLine = true) :
    ∃ body, page.text.toList = body ++ ['\n'] := by
  obtain ⟨pieces, padding⟩ := page
  cases pieces with
  | nil => contradiction
  | cons piece rest =>
    have last : piece.toList.getLast? = some '\n' := by
      simpa [Page.onNewLine, endsLine] using onNewLine
    obtain ⟨front, split⟩ := List.getLast?_eq_some_iff.mp last
    refine ⟨(String.join rest.reverse).toList ++ front, ?_⟩
    simp [Page.text, split]

theorem padding_next {page : Page} (quiet : page.padding.verbose = false) :
    page.padding.next = page.padding := by
  simp [Padding.next, quiet]

theorem text_writePadding {page : Page} (quiet : page.padding.verbose = false) :
    page.writePadding.text = page.text ++ page.padding.text := by
  show (page.writeAll page.padding.line).text = _
  rw [text_writeAll]
  simp [Padding.line, Padding.counter, quiet, Padding.text]

theorem text_writeBlankPadding {page : Page} (quiet : page.padding.verbose = false) :
    page.writeBlankPadding.text =
      page.text ++ String.ofList (Unicode.trimEnd page.padding.text.toList) := by
  show (page.writeAll page.padding.blankLine).text = _
  rw [text_writeAll]
  simp [Padding.blankLine, Padding.counter, quiet]

theorem writeBlankPadding_of_empty {page : Page} (quiet : page.padding.verbose = false)
    (empty : page.padding.text = "") : page.writeBlankPadding = page := by
  have nothing : page.padding.blankLine = [""] := by
    simp [Padding.blankLine, Padding.counter, quiet, empty, Unicode.trimEnd, Unicode.dropEndWhile]
  unfold writeBlankPadding
  rw [nothing, padding_next quiet]
  rfl

/-- Where a page is: on a line that is begun, with all of its padding if nothing else stands there,
    or behind a newline. -/
def At (page : Page) : LineState → Prop
  | .begun => page.onNewLine = true → page.padding.text = ""
  | .ended => page.onNewLine = true

structure Steady (line : LineState) (page : Page) : Prop where
  place : page.At line
  oneLine : ∀ level ∈ page.padding.levels, '\n' ∉ level.toList
  quiet : page.padding.verbose = false

end Page

theorem Padding.toList_text (padding : Padding) :
    padding.text.toList = padding.levels.reverse.flatMap String.toList := by
  rw [Padding.text, String.toList_join]

namespace Page.Steady

variable {line : LineState} {page : Page}

theorem oneLine_text (steady : page.Steady line) : '\n' ∉ page.padding.text.toList := by
  rw [Padding.toList_text]
  intro member
  obtain ⟨level, among, newline⟩ := List.mem_flatMap.mp member
  exact steady.oneLine level (List.mem_reverse.mp among) newline

theorem text_writePadding (steady : page.Steady line) :
    page.writePadding.text = page.text ++ page.padding.text :=
  Page.text_writePadding steady.quiet

theorem text_writeBlankPadding (steady : page.Steady line) :
    page.writeBlankPadding.text.toList =
      page.text.toList ++ Unicode.trimEnd page.padding.text.toList := by
  simp [Page.text_writeBlankPadding steady.quiet]

theorem write (steady : page.Steady .begun) {text : String} (oneLine : '\n' ∉ text.toList) :
    (page.write text).Steady .begun := by
  refine ⟨?_, by simpa using steady.oneLine, by simpa using steady.quiet⟩
  by_cases empty : text = ""
  · subst empty
    exact steady.place
  · intro onNewLine
    rw [onNewLine_write empty, endsLine_of_not_mem oneLine] at onNewLine
    contradiction

theorem write_endLine (steady : page.Steady line) {text : String} {body : List Char}
    (split : text.toList = body ++ ['\n']) : (page.write text).Steady .ended := by
  refine ⟨?_, by simpa using steady.oneLine, by simpa using steady.quiet⟩
  have some : text ≠ "" := by
    rintro rfl
    simp at split
  show (page.write text).onNewLine = true
  rw [onNewLine_write some]
  simp [endsLine, split]

theorem writePadding (steady : page.Steady line) : page.writePadding.Steady .begun := by
  have same : page.writePadding.padding = page.padding := padding_next steady.quiet
  refine ⟨?_, by rw [same]; exact steady.oneLine, by rw [same]; exact steady.quiet⟩
  intro onNewLine
  rw [same]
  have line : page.padding.line = page.padding.levels.reverse := by
    simp [Padding.line, Padding.counter, steady.quiet]
  have written : (page.writeAll page.padding.levels.reverse).onNewLine = true := by
    rw [← line]
    exact onNewLine
  have oneLine : ∀ level ∈ page.padding.levels.reverse, '\n' ∉ level.toList := by
    intro level member
    exact steady.oneLine level (List.mem_reverse.mp member)
  exact (onNewLine_writeAll oneLine written).2

theorem writeBlankPadding (steady : page.Steady line) :
    page.writeBlankPadding.padding = page.padding := padding_next steady.quiet

theorem blankLine (steady : page.Steady line) :
    (page.writeBlankPadding.write "\n").Steady .ended := by
  have same := steady.writeBlankPadding
  exact ⟨rfl, by simpa [same] using steady.oneLine, by simpa [same] using steady.quiet⟩

theorem push (steady : page.Steady .begun) {text level : String} (some : text ≠ "")
    (oneLine : '\n' ∉ text.toList) (levelOneLine : '\n' ∉ level.toList) :
    { page.write text with padding := (page.write text).padding.push level }.Steady .begun := by
  refine ⟨?_, ?_, by simpa [Padding.push] using steady.quiet⟩
  · intro onNewLine
    have written : (page.write text).onNewLine = true := onNewLine
    rw [onNewLine_write some, endsLine_of_not_mem oneLine] at written
    contradiction
  · intro other member
    rcases List.mem_cons.mp member with rfl | member
    · exact levelOneLine
    · exact steady.oneLine other (by simpa using member)

theorem pop (steady : page.Steady line) {level : String} {rest : List String}
    (opened : page.padding.levels = level :: rest) :
    { page with padding := { page.padding with levels := rest } }.Steady line := by
  refine ⟨?_, ?_, steady.quiet⟩
  · cases line with
    | ended => exact steady.place
    | begun =>
      intro onNewLine
      have empty := steady.place onNewLine
      have split : page.padding.text = String.join rest.reverse ++ level := by
        simp [Padding.text, opened]
      rw [split] at empty
      exact (String.append_eq_empty_iff.mp empty).1
  · intro other member
    exact steady.oneLine other (by simp [opened, member])

theorem skipBlankPadding (steady : page.Steady .begun) :
    (if page.onNewLine then page.writeBlankPadding else page) = page := by
  -- A begun line is not marked as empty: if nothing stands on it, there is no padding either.
  split
  · rename_i onNewLine
    exact writeBlankPadding_of_empty steady.quiet (steady.place onNewLine)
  · rfl

end Page.Steady

/-- The second page has further levels around its own. Behind `start` it holds what the first page
    holds, indented by them. -/
structure Page.Indented (outer : List String) (start : List Char) (line : LineState)
    (alone inside : Page) : Prop where
  steadyAlone : alone.Steady line
  steadyInside : inside.Steady line
  levels : inside.padding.levels = alone.padding.levels ++ outer
  written : ∃ written, inside.text.toList = start ++ written ∧
    SameLines written (indent (String.join outer.reverse).toList line alone.text.toList)

namespace Page.Indented

variable {outer : List String} {start : List Char} {line : LineState} {alone inside : Page}

theorem toList_padding (pages : Indented outer start line alone inside) :
    inside.padding.text.toList =
      (String.join outer.reverse).toList ++ alone.padding.text.toList := by
  simp [Padding.toList_text, pages.levels]

theorem oneLine_outer (pages : Indented outer start line alone inside) :
    '\n' ∉ (String.join outer.reverse).toList := by
  have whole := pages.steadyInside.oneLine_text
  rw [pages.toList_padding] at whole
  exact fun member => whole (List.mem_append_left _ member)

theorem extend {final : LineState} {alone' inside' : Page}
    (pages : Indented outer start line alone inside) (more moreInside : List Char)
    (steadyAlone : alone'.Steady final) (steadyInside : inside'.Steady final)
    (levels : inside'.padding.levels = alone'.padding.levels ++ outer)
    (text : alone'.text.toList = alone.text.toList ++ more)
    (textInside : inside'.text.toList = inside.text.toList ++ moreInside)
    (same : SameLines
      (indent (String.join outer.reverse).toList line alone.text.toList ++ moreInside)
      (indent (String.join outer.reverse).toList final (alone.text.toList ++ more))) :
    Indented outer start final alone' inside' := by
  obtain ⟨written, split, alike⟩ := pages.written
  refine ⟨steadyAlone, steadyInside, levels, written ++ moreInside, ?_, ?_⟩
  · rw [textInside, split, List.append_assoc]
  · rw [text]
    exact (alike.append moreInside).trans same

theorem write (pages : Indented outer start .begun alone inside) {text : String}
    (oneLine : '\n' ∉ text.toList) :
    Indented outer start .begun (alone.write text) (inside.write text) := by
  refine pages.extend text.toList text.toList (pages.steadyAlone.write oneLine)
    (pages.steadyInside.write oneLine) (by simpa using pages.levels) (by simp [text_write])
    (by simp [text_write]) ?_
  rw [indent_append_oneLine _ _ oneLine]
  exact .refl _

theorem write_endLine (pages : Indented outer start .begun alone inside) {text : String}
    {body : List Char} (split : text.toList = body ++ ['\n']) (oneLine : '\n' ∉ body) :
    Indented outer start .ended (alone.write text) (inside.write text) := by
  refine pages.extend text.toList text.toList (pages.steadyAlone.write_endLine split)
    (pages.steadyInside.write_endLine split) (by simpa using pages.levels) (by simp [text_write])
    (by simp [text_write]) ?_
  rw [split, indent_endLine _ _ oneLine]
  exact .refl _

theorem writePadding (pages : Indented outer start .ended alone inside) :
    Indented outer start .begun alone.writePadding inside.writePadding := by
  obtain ⟨body, ended⟩ := text_of_onNewLine pages.steadyAlone.place
  refine pages.extend alone.padding.text.toList inside.padding.text.toList
    pages.steadyAlone.writePadding pages.steadyInside.writePadding (by simpa using pages.levels)
    (by simp [pages.steadyAlone.text_writePadding])
    (by simp [pages.steadyInside.text_writePadding]) ?_
  rw [ended, indent_startLine _ _ pages.steadyAlone.oneLine_text, pages.toList_padding]
  exact .refl _

theorem blankLine (pages : Indented outer start .ended alone inside) :
    Indented outer start .ended (alone.writeBlankPadding.write "\n")
      (inside.writeBlankPadding.write "\n") := by
  obtain ⟨body, ended⟩ := text_of_onNewLine pages.steadyAlone.place
  refine pages.extend (Unicode.trimEnd alone.padding.text.toList ++ ['\n'])
    (Unicode.trimEnd inside.padding.text.toList ++ ['\n']) pages.steadyAlone.blankLine
    pages.steadyInside.blankLine (by simpa using pages.levels)
    (by simp [text_write, pages.steadyAlone.text_writeBlankPadding])
    (by simp [text_write, pages.steadyInside.text_writeBlankPadding]) ?_
  have oneLine := pages.steadyAlone.oneLine_text
  have trimmedOneLine : '\n' ∉ Unicode.trimEnd alone.padding.text.toList := by
    obtain ⟨blanks, split, _⟩ := trimEnd_append_rest alone.padding.text.toList
    rw [split] at oneLine
    exact fun member => oneLine (List.mem_append_left blanks member)
  rw [ended, indent_blankLine _ _ trimmedOneLine, pages.toList_padding]
  exact SameLines.trimEnd_append _ pages.oneLine_outer oneLine

theorem push (pages : Indented outer start .begun alone inside) {text level : String}
    (some : text ≠ "") (oneLine : '\n' ∉ text.toList) (levelOneLine : '\n' ∉ level.toList) :
    Indented outer start .begun
      { alone.write text with padding := (alone.write text).padding.push level }
      { inside.write text with padding := (inside.write text).padding.push level } := by
  have written := pages.write oneLine
  refine ⟨pages.steadyAlone.push some oneLine levelOneLine,
    pages.steadyInside.push some oneLine levelOneLine, ?_, written.written⟩
  exact congrArg (level :: ·) written.levels

theorem pop (pages : Indented outer start line alone inside) {level : String}
    {rest : List String} (opened : alone.padding.levels = level :: rest) :
    Indented outer start line { alone with padding := { alone.padding with levels := rest } }
      { inside with padding := { inside.padding with levels := rest ++ outer } } := by
  have openedInside : inside.padding.levels = level :: (rest ++ outer) := by
    rw [pages.levels, opened, List.cons_append]
  exact ⟨pages.steadyAlone.pop opened, pages.steadyInside.pop openedInside, rfl, pages.written⟩

theorem applyAll {final : LineState} {strokes : List Stroke} {levels : List String}
    (tidy : Tidy line strokes final) (pages : Indented outer start line alone inside)
    (after : levelsAfter strokes alone.padding.levels = some levels) :
    ∃ alone' inside', alone.applyAll strokes = (alone', none) ∧
      inside.applyAll strokes = (inside', none) ∧ alone'.padding.levels = levels ∧
      Indented outer start final alone' inside' := by
  induction tidy generalizing alone inside with
  | nil => exact ⟨alone, inside, rfl, rfl, Option.some.inj after, pages⟩
  | text oneLine _ ih => exact ih (pages.write oneLine) (by simpa [Stroke.levelsAfter] using after)
  | endLine split oneLine _ ih =>
    exact ih (pages.write_endLine split oneLine) (by simpa [Stroke.levelsAfter] using after)
  | padding _ ih => exact ih pages.writePadding (by simpa [Stroke.levelsAfter] using after)
  | blankLine _ ih => exact ih pages.blankLine (by simpa [Stroke.levelsAfter] using after)
  | push some oneLine levelOneLine _ ih =>
    exact ih (pages.push some oneLine levelOneLine)
      (by simpa [Stroke.levelsAfter, Padding.push] using after)
  | pop _ ih =>
    cases opened : alone.padding.levels with
    | nil => simp [Stroke.levelsAfter, opened] at after
    | cons level rest =>
      obtain ⟨alone', inside', left, right, same, final⟩ :=
        ih (pages.pop opened) (by simpa [Stroke.levelsAfter, opened] using after)
      have popped : inside.padding.pop = .ok { inside.padding with levels := rest ++ outer } := by
        simp only [Padding.pop, pages.levels, opened, List.cons_append]
      refine ⟨alone', inside', ?_, ?_, same, final⟩
      · simp only [Page.applyAll, apply, Padding.pop, opened]
        exact left
      · simp only [Page.applyAll, apply, popped]
        exact right

theorem endForGap (pages : Indented outer start line alone inside) :
    Indented outer start .ended
      ((if alone.onNewLine then alone.writeBlankPadding else alone).write "\n")
      ((if inside.onNewLine then inside.writeBlankPadding else inside).write "\n") := by
  cases line with
  | begun =>
    rw [pages.steadyAlone.skipBlankPadding, pages.steadyInside.skipBlankPadding]
    exact pages.write_endLine (show "\n".toList = [] ++ ['\n'] from rfl) (by simp)
  | ended =>
    have onNewLine : alone.onNewLine = true := pages.steadyAlone.place
    have onNewLineInside : inside.onNewLine = true := pages.steadyInside.place
    rw [if_pos onNewLine, if_pos onNewLineInside]
    exact pages.blankLine

theorem writeGap (pages : Indented outer start line alone inside) (gap : Gap) :
    Indented outer start .begun (alone.writeGap gap) (inside.writeGap gap) := by
  unfold Page.writeGap
  cases gap with
  | newline => exact pages.endForGap.writePadding
  | blankLine => exact pages.endForGap.blankLine.writePadding

end Page.Indented

end CanonicalMarkdown
