import CanonicalMarkdown.Proofs.Entries
import CanonicalMarkdown.Proofs.SamePage
import CanonicalMarkdown.Proofs.VisitedPage

namespace CanonicalMarkdown

def countedText (count : Nat) : List Entry → String
  | [] => ""
  | .text text :: rest => text ++ countedText count rest
  | .padding text :: rest => toString count ++ (text ++ countedText (count + 1) rest)

def parted : List Entry → String × List (String × String)
  | [] => ("", [])
  | .text text :: rest => (text ++ (parted rest).1, (parted rest).2)
  | .padding text :: rest => ("", (text, (parted rest).1) :: (parted rest).2)

theorem countedText_append (count : Nat) (first second : List Entry) :
    countedText count (first ++ second) =
      countedText count first ++ countedText (count + (paddings first).length) second := by
  induction first generalizing count with
  | nil => simp [countedText, paddings]
  | cons entry rest ih =>
    cases entry <;>
      simp [countedText, ih, String.append_assoc, Nat.add_assoc, Nat.add_comm 1]

theorem plainText_parted (written : List Entry) :
    plainText written =
      (parted written).1 ++ String.join ((parted written).2.map fun part => part.1 ++ part.2) := by
  induction written with
  | nil => rfl
  | cons entry rest ih =>
    rw [← List.singleton_append, plainText_append, ih]
    cases entry <;> simp [plainText, Entry.written, parted, String.append_assoc]

theorem countedText_parted (count : Nat) (written : List Entry) :
    countedText count written =
      (parted written).1 ++ String.join (((parted written).2.zipIdx count).map fun part =>
        toString part.2 ++ (part.1.1 ++ part.1.2)) := by
  induction written generalizing count with
  | nil => rfl
  | cons entry rest ih => cases entry <;> simp [countedText, parted, ih, String.append_assoc]

theorem paddings_parted (written : List Entry) :
    (parted written).2.map Prod.fst = paddings written := by
  induction written with
  | nil => rfl
  | cons entry rest ih => cases entry <;> simp [parted, ih]

/-- Strokes with text right behind every blank padding and right before every level they open. -/
inductive TextBound : List Stroke → Prop
  | nil : TextBound []
  | text {text : String} {rest : List Stroke} : TextBound rest → TextBound (.text text :: rest)
  | padding {rest : List Stroke} : TextBound rest → TextBound (.padding :: rest)
  | blankLine {text : String} {rest : List Stroke} :
      text ≠ "" → TextBound rest → TextBound (.blankPadding :: .text text :: rest)
  | push {text level : String} {rest : List Stroke} :
      text ≠ "" → TextBound rest → TextBound (.text text :: .push level :: rest)
  | pop {rest : List Stroke} : TextBound rest → TextBound (.pop :: rest)

namespace TextBound

theorem append {first second : List Stroke} (left : TextBound first) (right : TextBound second) :
    TextBound (first ++ second) := by
  induction left with
  | nil => exact right
  | text _ ih => exact .text ih
  | padding _ ih => exact .padding ih
  | blankLine some _ ih => exact .blankLine some ih
  | push some _ ih => exact .push some ih
  | pop _ ih => exact .pop ih

theorem flatMap {α : Type} {strokes : α → List Stroke} (each : ∀ item, TextBound (strokes item))
    (items : List α) : TextBound (items.flatMap strokes) := by
  induction items with
  | nil => exact .nil
  | cons item rest ih =>
    rw [List.flatMap_cons]
    exact (each item).append ih

theorem map_text (texts : List String) : TextBound (texts.map .text) := by
  induction texts with
  | nil => exact .nil
  | cons text rest ih => exact .text ih

theorem gap (gap : Gap) (onNewLine : Bool) : TextBound (gap.strokes onNewLine) := by
  have last : TextBound [.text "\n", .padding] := .text (.padding .nil)
  cases onNewLine <;> cases gap
  · exact last
  · exact .text (.blankLine (by decide) (.padding .nil))
  · exact .blankLine (by decide) (.padding .nil)
  · exact .blankLine (by decide) (.blankLine (by decide) (.padding .nil))

theorem gapStrokes (renderer : Renderer) (view : View) (onNewLine : Bool) :
    TextBound (renderer.gapStrokes view onNewLine) := by
  unfold Renderer.gapStrokes
  split
  · exact .nil
  · dsimp only
    split
    · exact .gap _ _
    · exact .nil

end TextBound

namespace Page

theorem writeAll_same (page : Page) (texts : List String) :
    (page.writeAll texts).Same (page.write (String.join texts)) := by
  induction texts generalizing page with
  | nil => exact .refl page
  | cons text rest ih =>
    have joined := Same.write_append page text (String.join rest)
    rw [← String.join_cons] at joined
    exact (ih (page.write text)).trans joined

theorem onNewLine_writeAll_eq (page : Page) (texts : List String) :
    (page.writeAll texts).onNewLine =
      if (String.join texts).isEmpty then page.onNewLine
      else Text.endsLine (String.join texts) := by
  rw [(page.writeAll_same texts).onNewLine, onNewLine_write_eq]

structure Counts (written : List Entry) (plain counted : Page) : Prop where
  plainText : plain.text = plainText written
  countedText : counted.text = countedText 0 written
  emitted : counted.padding.emitted = (paddings written).length
  quiet : plain.padding.verbose = false
  verbose : counted.padding.verbose = true
  levels : plain.padding.levels = counted.padding.levels

/-- The pages may disagree about the end of the line only where the padding is an empty text. -/
def Agree (plain counted : Page) : Prop :=
  plain.onNewLine = counted.onNewLine ∨ counted.padding.text = ""

def pad (page : Page) (pieces : List String) : Page :=
  { page.writeAll (page.padding.counter ++ pieces) with padding := page.padding.next }

theorem writePadding_eq_pad (page : Page) :
    page.writePadding = page.pad page.padding.levels.reverse := rfl

theorem writeBlankPadding_eq_pad (page : Page) :
    page.writeBlankPadding =
      page.pad [String.ofList (Unicode.trimEnd page.padding.text.toList)] := rfl

namespace Counts

variable {written : List Entry} {plain counted : Page}

theorem padding_text (counts : Counts written plain counted) :
    plain.padding.text = counted.padding.text := by
  rw [Padding.text, Padding.text, counts.levels]

theorem write (counts : Counts written plain counted) (text : String) :
    Counts (written ++ [.text text]) (plain.write text) (counted.write text) where
  plainText := by
    rw [text_write, counts.plainText, plainText_append]
    simp [CanonicalMarkdown.plainText, Entry.written]
  countedText := by
    rw [text_write, counts.countedText, countedText_append]
    simp [CanonicalMarkdown.countedText]
  emitted := by simp [counts.emitted, paddings_append]
  quiet := by simpa using counts.quiet
  verbose := by simpa using counts.verbose
  levels := by simpa using counts.levels

theorem pad (counts : Counts written plain counted) (pieces : List String) :
    Counts (written ++ [.padding (String.join pieces)]) (plain.pad pieces)
      (counted.pad pieces) where
  plainText := by
    have shown : (plain.pad pieces).text = plain.text ++ String.join pieces := by
      show (plain.writeAll _).text = _
      rw [text_writeAll, Padding.counter, counts.quiet]
      simp
    rw [shown, counts.plainText, plainText_append]
    simp [CanonicalMarkdown.plainText, Entry.written]
  countedText := by
    have shown : (counted.pad pieces).text =
        counted.text ++ (toString counted.padding.emitted ++ String.join pieces) := by
      show (counted.writeAll _).text = _
      rw [text_writeAll, Padding.counter, counts.verbose]
      simp
    rw [shown, counts.countedText, counts.emitted, countedText_append]
    simp [CanonicalMarkdown.countedText]
  emitted := by
    show counted.padding.next.emitted = _
    simp [Padding.next, counts.verbose, counts.emitted, paddings_append]
  quiet := by
    show plain.padding.next.verbose = _
    simp [Padding.next, counts.quiet]
  verbose := by
    show counted.padding.next.verbose = _
    simp [Padding.next, counts.verbose]
  levels := by
    show plain.padding.next.levels = counted.padding.next.levels
    simpa using counts.levels

theorem agree_pad (counts : Counts written plain counted) {pieces : List String}
    (some : String.join pieces ≠ "") : (plain.pad pieces).Agree (counted.pad pieces) := by
  have nonempty : (String.join pieces).isEmpty = false := by simpa using some
  refine .inl ?_
  show (plain.writeAll _).onNewLine = (counted.writeAll _).onNewLine
  simp only [Padding.counter, counts.quiet, counts.verbose, Bool.false_eq_true, if_false, if_true,
    List.nil_append, List.cons_append]
  rw [show counted.writeAll (toString counted.padding.emitted :: pieces) =
    (counted.write (toString counted.padding.emitted)).writeAll pieces from rfl,
    onNewLine_writeAll_eq, onNewLine_writeAll_eq, nonempty]
  rfl

theorem writePadding (counts : Counts written plain counted) :
    Counts (written ++ [.padding counted.padding.text]) plain.writePadding
      counted.writePadding := by
  rw [writePadding_eq_pad, writePadding_eq_pad, counts.levels]
  exact counts.pad _

theorem agree_writePadding (counts : Counts written plain counted) :
    plain.writePadding.Agree counted.writePadding := by
  by_cases empty : counted.padding.text = ""
  · refine .inr ?_
    rw [← empty, Padding.text, Padding.text, levels_writePadding]
  · rw [writePadding_eq_pad, writePadding_eq_pad, counts.levels]
    exact counts.agree_pad empty

theorem writeBlankPadding (counts : Counts written plain counted) :
    Counts
      (written ++ [.padding (String.ofList (Unicode.trimEnd counted.padding.text.toList))])
      plain.writeBlankPadding counted.writeBlankPadding := by
  rw [writeBlankPadding_eq_pad, writeBlankPadding_eq_pad, counts.padding_text]
  simpa using counts.pad [String.ofList (Unicode.trimEnd counted.padding.text.toList)]

theorem agree_write (agree : plain.Agree counted) (text : String) :
    (plain.write text).Agree (counted.write text) := by
  unfold Agree
  simp only [onNewLine_write_eq, padding_write]
  split
  · exact agree
  · exact .inl rfl

theorem onNewLine_write_eq_of_ne (plain counted : Page) {text : String} (some : text ≠ "") :
    (plain.write text).onNewLine = (counted.write text).onNewLine := by
  rw [onNewLine_write some, onNewLine_write some]

theorem push (counts : Counts written plain counted) (level : String) :
    Counts written { plain with padding := plain.padding.push level }
      { counted with padding := counted.padding.push level } :=
  ⟨counts.plainText, counts.countedText, counts.emitted, counts.quiet, counts.verbose,
    congrArg (level :: ·) counts.levels⟩

theorem withLevels (counts : Counts written plain counted) (levels : List String) :
    Counts written { plain with padding := { plain.padding with levels } }
      { counted with padding := { counted.padding with levels } } :=
  ⟨counts.plainText, counts.countedText, counts.emitted, counts.quiet, counts.verbose, rfl⟩

theorem agree_pop (agree : plain.Agree counted) {level : String} {rest : List String}
    (opened : counted.padding.levels = level :: rest) :
    { plain with padding := { plain.padding with levels := rest } }.Agree
      { counted with padding := { counted.padding with levels := rest } } := by
  refine agree.imp id fun empty => ?_
  have split : counted.padding.text = String.join rest.reverse ++ level := by
    simp [Padding.text, opened]
  rw [split] at empty
  exact (String.append_eq_empty_iff.mp empty).1

theorem applyAll {strokes : List Stroke} (bound : TextBound strokes)
    (counts : Counts written plain counted) (agree : plain.Agree counted) :
    Counts (written ++ entries counted.padding.levels strokes) (plain.applyAll strokes).1
        (counted.applyAll strokes).1 ∧
      (plain.applyAll strokes).1.Agree (counted.applyAll strokes).1 := by
  induction bound generalizing written plain counted with
  | nil => exact ⟨by rwa [entries, List.append_nil], agree⟩
  | @text text rest _ ih =>
    have more := ih (counts.write text) (agree_write agree text)
    rw [padding_write, List.append_assoc] at more
    exact more
  | padding _ ih =>
    have more := ih counts.writePadding counts.agree_writePadding
    rw [levels_writePadding, List.append_assoc] at more
    exact more
  | @blankLine text rest some _ ih =>
    have more := ih (counts.writeBlankPadding.write text)
      (.inl (onNewLine_write_eq_of_ne _ _ some))
    rw [padding_write, levels_writeBlankPadding, List.append_assoc, List.append_assoc] at more
    exact more
  | @push text level rest some _ ih =>
    have more := ih ((counts.write text).push level) (.inl (onNewLine_write_eq_of_ne _ _ some))
    have levels : ((counted.write text).padding.push level).levels =
        level :: counted.padding.levels := by
      show level :: (counted.write text).padding.levels = _
      rw [padding_write]
    rw [levels, List.append_assoc] at more
    exact more
  | pop _ ih =>
    cases opened : counted.padding.levels with
    | nil =>
      have openedPlain := counts.levels.trans opened
      simp only [Page.applyAll, apply, Padding.pop, opened, openedPlain]
      exact ⟨by rwa [entries, List.append_nil], agree⟩
    | cons level rest =>
      have openedPlain := counts.levels.trans opened
      simp only [Page.applyAll, apply, Padding.pop, opened, openedPlain]
      exact ih (counts.withLevels rest) (agree_pop agree opened)

end Counts

theorem applyAll_gapStrokes_of_empty {page : Page} (quiet : page.padding.verbose = false)
    (empty : page.padding.text = "") (renderer : Renderer) (view : View) (onNewLine : Bool) :
    page.applyAll (renderer.gapStrokes view onNewLine) =
      page.applyAll (renderer.gapStrokes view false) := by
  -- Where the padding is an empty text, it does not matter that a line before a gap is marked as
  -- empty.
  cases onNewLine with
  | false => rfl
  | true =>
    have skipped (gap : Gap) :
        page.applyAll (gap.strokes true) = page.applyAll (gap.strokes false) := by
      show page.writeBlankPadding.applyAll _ = _
      rw [writeBlankPadding_of_empty quiet empty]
      rfl
    unfold Renderer.gapStrokes
    split
    · rfl
    · dsimp only
      split
      · exact skipped _
      · rfl

end Page

namespace Renderer

open Page

def written (renderer : Renderer) (rules : RuleSet) : Page → List (View × Phase) → List Entry
  | _, [] => []
  | page, visit :: rest =>
    entries page.padding.levels (renderer.strokes rules page visit)
      ++ renderer.written rules (renderer.visit rules page visit) rest

variable {renderer : Renderer} {rules : RuleSet} {written : List Entry} {plain counted : Page}

/-- A call of a rule writes the same on both pages, but for the counters. The gap behind a node may
    be begun in two ways, but only where it does not show. -/
theorem counts_visit (bound : ∀ view phase, TextBound (rules.reply view phase).strokes)
    (counts : Counts written plain counted) (agree : plain.Agree counted) (visit : View × Phase) :
    Counts (written ++ entries counted.padding.levels (renderer.strokes rules counted visit))
        (renderer.visit rules plain visit) (renderer.visit rules counted visit) ∧
      (renderer.visit rules plain visit).Agree (renderer.visit rules counted visit) := by
  obtain ⟨view, phase⟩ := visit
  cases phase with
  | enter => exact counts.applyAll (bound view .enter) agree
  | leave =>
    obtain ⟨own, agreeOwn⟩ := counts.applyAll (bound view .leave) agree
    have same : renderer.visit rules plain (view, .leave) =
        (plain.applyAll (renderer.strokes rules counted (view, .leave))).1 := by
      simp only [visit, strokes, applyAll_append]
      generalize plain.applyAll (rules.reply view .leave).strokes = applied at own agreeOwn ⊢
      generalize counted.applyAll (rules.reply view .leave).strokes = other at own agreeOwn ⊢
      obtain ⟨next, error⟩ := applied
      cases error with
      | some error => rfl
      | none =>
        rcases agreeOwn with line | empty
        · rw [line]
        · have emptyPlain := own.padding_text.trans empty
          dsimp only at emptyPlain ⊢
          rw [applyAll_gapStrokes_of_empty own.quiet emptyPlain,
            ← applyAll_gapStrokes_of_empty own.quiet emptyPlain _ _ other.1.onNewLine]
    rw [same]
    exact counts.applyAll ((bound view .leave).append (.gapStrokes renderer view _)) agree

theorem counts_visits (bound : ∀ view phase, TextBound (rules.reply view phase).strokes)
    (visits : List (View × Phase)) (counts : Counts written plain counted)
    (agree : plain.Agree counted) :
    Counts (written ++ renderer.written rules counted visits)
      (visits.foldl (renderer.visit rules) plain)
      (visits.foldl (renderer.visit rules) counted) := by
  induction visits generalizing written plain counted with
  | nil => rwa [Renderer.written, List.append_nil]
  | cons visit rest ih =>
    obtain ⟨next, agreeNext⟩ := counts_visit bound counts agree visit
    have more := ih next agreeNext
    rwa [List.append_assoc] at more

theorem run_counts (renderer : Renderer) (follows : renderer.Follows rules)
    (bound : ∀ view phase, TextBound (rules.reply view phase).strokes) {document : Document}
    (calm : (document.visits rules.hides).findSome? rules.complaint = none) :
    let visits := document.visits rules.hides
    let final (verbose : Bool) : Page :=
      visits.foldl (renderer.visit rules) { padding := { verbose } }
    (∀ verbose, { renderer with verbosePadding := verbose }.run document = .done (final verbose)) ∧
      Counts (renderer.written rules { padding := { verbose := true } } visits) (final false)
        (final true) := by
  intro visits final
  constructor
  · intro verbose
    have alike : { renderer with verbosePadding := verbose }.Follows rules := follows
    exact walk_eq_foldl alike document.source [] [] [] document.root _ calm
  · have start : Counts [] { padding := { verbose := false } } { padding := { verbose := true } } :=
      ⟨rfl, rfl, rfl, rfl, rfl, rfl⟩
    exact counts_visits bound visits start (.inl rfl)

end Renderer

end CanonicalMarkdown
