import CanonicalMarkdown.Proofs.PaddedLines
import CanonicalMarkdown.Proofs.PageGrowth
import CanonicalMarkdown.Proofs.VisitedPage

namespace CanonicalMarkdown

inductive Entry
  | text (text : String)
  | padding (text : String)
deriving DecidableEq, Repr

def Entry.written : Entry → String
  | .text shown | .padding shown => shown

def Entry.padding? : Entry → Option String
  | .text _ => none
  | .padding shown => some shown

def entries : List String → List Stroke → List Entry
  | _, [] => []
  | levels, .text text :: rest => .text text :: entries levels rest
  | levels, .padding :: rest => .padding (Padding.text { levels }) :: entries levels rest
  | levels, .blankPadding :: rest =>
    .padding (String.ofList (Unicode.trimEnd (Padding.text { levels }).toList)) ::
      entries levels rest
  | levels, .push level :: rest => entries (level :: levels) rest
  | [], .pop :: _ => []
  | _ :: levels, .pop :: rest => entries levels rest

def plainText (written : List Entry) : String := String.join (written.map Entry.written)

def paddings (written : List Entry) : List String := written.filterMap Entry.padding?

@[simp] theorem paddings_nil : paddings [] = [] := rfl

@[simp] theorem paddings_text (text : String) (rest : List Entry) :
    paddings (.text text :: rest) = paddings rest := rfl

@[simp] theorem paddings_padding (text : String) (rest : List Entry) :
    paddings (.padding text :: rest) = text :: paddings rest := rfl

theorem paddings_append (first second : List Entry) :
    paddings (first ++ second) = paddings first ++ paddings second := List.filterMap_append

theorem plainText_append (first second : List Entry) :
    plainText (first ++ second) = plainText first ++ plainText second := by
  simp [plainText, String.join_append]

theorem plainText_text (text : String) (rest : List Entry) :
    plainText (.text text :: rest) = text ++ plainText rest := by
  simp [plainText, Entry.written]

theorem plainText_padding (text : String) (rest : List Entry) :
    plainText (.padding text :: rest) = text ++ plainText rest := by
  simp [plainText, Entry.written]

namespace Page

variable {page : Page}

theorem text_applyAll (quiet : page.padding.verbose = false) (strokes : List Stroke) :
    (page.applyAll strokes).1.text =
      page.text ++ plainText (entries page.padding.levels strokes) := by
  induction strokes generalizing page with
  | nil => simp [applyAll, entries, plainText]
  | cons stroke rest ih =>
    cases stroke with
    | text text =>
      have more := @ih (page.write text) (by simpa using quiet)
      rw [padding_write, text_write, String.append_assoc] at more
      rwa [entries, plainText_text]
    | padding =>
      have same : page.writePadding.padding = page.padding := padding_next quiet
      have more := @ih page.writePadding (by rwa [same])
      rw [text_writePadding quiet, same, String.append_assoc] at more
      rwa [entries, plainText_padding]
    | blankPadding =>
      have same : page.writeBlankPadding.padding = page.padding := padding_next quiet
      have more := @ih page.writeBlankPadding (by rwa [same])
      rw [text_writeBlankPadding quiet, same, String.append_assoc] at more
      rwa [entries, plainText_padding]
    | push level => exact @ih { page with padding := page.padding.push level } quiet
    | pop =>
      cases opened : page.padding.levels with
      | nil =>
        simp only [applyAll, apply, Padding.pop, opened]
        show page.text = _
        simp [entries, plainText]
      | cons level outer =>
        simp only [applyAll, apply, Padding.pop, opened]
        exact @ih { page with padding := { page.padding with levels := outer } } quiet

theorem applyAll_texts (page : Page) (texts : List String) :
    page.applyAll (texts.map .text) = (page.writeAll texts, none) := by
  induction texts generalizing page with
  | nil => rfl
  | cons text rest ih => exact ih (page.write text)

variable {next : Page} {texts : List String}

theorem text_of_texts {rest : List Stroke}
    (applied : page.applyAll (texts.map .text ++ rest) = (next, none)) :
    ∃ more, next.text = page.text ++ (String.join texts ++ more) := by
  rw [applyAll_append, applyAll_texts] at applied
  obtain ⟨more, grown⟩ := ((page.writeAll texts).grows_applyAll rest).text
  refine ⟨more, ?_⟩
  rw [← String.append_assoc, ← text_writeAll, ← grown]
  exact (congrArg (fun result => result.1.text) applied).symm

theorem text_of_append_texts {strokes : List Stroke}
    (applied : page.applyAll (strokes ++ texts.map .text) = (next, none)) :
    ∃ more, next.text = page.text ++ (more ++ String.join texts) := by
  obtain ⟨more, grown⟩ := (page.grows_applyAll strokes).text
  rw [applyAll_append] at applied
  generalize page.applyAll strokes = result at applied grown
  obtain ⟨between, error | _⟩ := result
  · have last : between.writeAll texts = next :=
      congrArg Prod.fst ((between.applyAll_texts texts).symm.trans applied)
    exact ⟨more, by rw [← last, text_writeAll, grown, String.append_assoc]⟩
  · cases applied

end Page

end CanonicalMarkdown
