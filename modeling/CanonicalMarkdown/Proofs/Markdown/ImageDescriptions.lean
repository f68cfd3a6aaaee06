import CanonicalMarkdown.Proofs.Indentation
import CanonicalMarkdown.Proofs.Markdown.LinkTail
import CanonicalMarkdown.Proofs.Markdown.LinkifiedPage

namespace CanonicalMarkdown.Markdown

open Text

section Lines

structure IsLine (source : Source) (node : Node) (run : TextRun) (text : List Char) : Prop where
  payload : node.payload = .text run
  segment : run.segment = node.span
  sliced : source.slice? node.span = some text
  oneLine : '\n' ∉ text

theorem IsLine.leaf {source : Source} {run : TextRun} {text : List Char}
    (sliced : source.slice? run.segment = some text) (oneLine : '\n' ∉ text) :
    IsLine source (.leaf (.text run) run.segment) run text := ⟨rfl, rfl, sliced, oneLine⟩

/-- Text nodes parted by soft breaks, their source texts, and what stands between these: the end of
    a line, and whatever comes before the next text on the next line. -/
inductive OnLines (source : Source) : List Node → List (List Char) → List (List Char) → Prop
  | none : OnLines source [] [] []
  | last {node : Node} {run : TextRun} {text : List Char} (line : IsLine source node run text)
      (filled : text ≠ []) : OnLines source [node] [text] []
  | cons {node next : Node} {run : TextRun} {text behind before : List Char} {rest : List Node}
      {texts gaps : List (List Char)} (line : IsLine source node run text)
      (soft : run.softBreak = true)
      (apart : source.slice? ⟨node.span.stop, next.span.start⟩ = some (behind ++ '\n' :: before))
      (oneLine : '\n' ∉ behind ∧ '\n' ∉ before)
      (others : OnLines source (next :: rest) texts gaps) :
      OnLines source (node :: next :: rest) (text :: texts) ((behind ++ '\n' :: before) :: gaps)

def woven : List (List Char) → List (List Char) → List Char
  | text :: texts, gap :: gaps => text ++ (gap ++ woven texts gaps)
  | texts, _ => texts.flatten

/-- Texts parted by a newline and one padding behind it, whose counter goes on if it is written. -/
def joinedLines (padding : Padding) : List (List Char) → List Char
  | [] => []
  | [text] => text
  | text :: texts =>
    text ++ ('\n' :: (String.join padding.line).toList ++ joinedLines padding.next texts)

def paddedWoven (padding : Padding) : List (List Char) → List (List Char) → List Char
  | text :: texts, gap :: gaps =>
    text ++ (spread (String.join padding.line).toList gap ++ paddedWoven padding.next texts gaps)
  | texts, _ => texts.flatten

variable {source : Source} {node : Node} {rest nodes : List Node} {texts gaps : List (List Char)}

theorem OnLines.woven_ne_nil (onLines : OnLines source (node :: rest) texts gaps) :
    woven texts gaps ≠ [] := by
  cases onLines with
  | last line filled => simpa [woven] using filled
  | cons => simp [woven]

theorem OnLines.sliced (onLines : OnLines source (node :: rest) texts gaps) :
    ∃ last, (node :: rest).getLast? = some last ∧
      source.slice? ⟨node.span.start, last.span.stop⟩ = some (woven texts gaps) := by
  induction rest generalizing node texts gaps with
  | nil =>
    cases onLines with
    | last line filled => exact ⟨node, rfl, by simpa [woven] using line.sliced⟩
  | cons next rest ih =>
    cases onLines with
    | cons line soft apart oneLine others =>
      obtain ⟨last, final, sliced⟩ := ih others
      exact ⟨last, by simpa using final,
        Source.slice?_append line.sliced (Source.slice?_append apart sliced)⟩

theorem spread_gap (padding : List Char) {behind before : List Char}
    (oneLine : '\n' ∉ behind ∧ '\n' ∉ before) :
    spread padding (behind ++ '\n' :: before) = behind ++ ('\n' :: padding ++ before) := by
  rw [← List.singleton_append, spread_append, spread_append, spread_newline,
    spread_of_not_mem padding oneLine.1, spread_of_not_mem padding oneLine.2]

theorem text_paddedLines_oneLine {text : List Char} (oneLine : '\n' ∉ text) (page : Page) :
    (page.applyAll (paddedLines ((lines text).map String.ofList))).1.text.toList =
      page.text.toList ++ text := by
  by_cases filled : text = []
  · subst filled
    simp [lines, paddedLines, Page.applyAll]
  · rw [lines_of_not_mem oneLine filled]
    simp [paddedLines, Page.applyAll, Page.apply, Page.text_write]

theorem text_writePadding_toList (page : Page) :
    page.writePadding.text.toList = page.text.toList ++ (String.join page.padding.line).toList := by
  rw [← String.toList_append, ← Page.text_writeAll]
  rfl

theorem applyAll_paddedLines_cons {rest : List String} (some : rest ≠ []) (line : String)
    (page : Page) : page.applyAll (paddedLines (line :: rest)) =
      (page.write line).writePadding.applyAll (paddedLines rest) := by
  obtain ⟨next, rest, rfl⟩ := List.exists_cons_of_ne_nil some
  rfl

theorem text_paddedLines (onLines : OnLines source nodes texts gaps) {front : List Char}
    (oneLine : '\n' ∉ front) (page : Page) :
    (page.applyAll (paddedLines ((lines (front ++ woven texts gaps)).map .ofList))).1.text.toList =
      page.text.toList ++ (front ++ paddedWoven page.padding texts gaps) := by
  induction onLines generalizing front page with
  | none => simpa [woven, paddedWoven] using text_paddedLines_oneLine oneLine page
  | @last node run text line filled =>
    have whole : '\n' ∉ front ++ text := by simp [oneLine, line.oneLine]
    simpa [woven, paddedWoven] using text_paddedLines_oneLine whole page
  | @cons node next run text behind before rest texts gaps line soft apart between others ih =>
    have whole : '\n' ∉ front ++ (text ++ behind) := by simp [oneLine, line.oneLine, between.1]
    have split : lines (front ++ woven (text :: texts) ((behind ++ '\n' :: before) :: gaps)) =
        (front ++ (text ++ behind) ++ ['\n']) :: lines (before ++ woven texts gaps) := by
      rw [← lines_append_newline whole]
      simp [woven]
    have more : (lines (before ++ woven texts gaps)).map String.ofList ≠ [] := by
      simpa using lines_ne_nil (by simp [others.woven_ne_nil])
    let written := page.write (.ofList (front ++ (text ++ behind) ++ ['\n']))
    have padding : written.writePadding.padding = page.padding.next := by
      simp [written, Page.writePadding]
    have below := ih between.2 written.writePadding
    rw [padding, text_writePadding_toList, Page.text_write] at below
    rw [split, List.map_cons, applyAll_paddedLines_cons more, below, paddedWoven,
      spread_gap _ between]
    simp [written]

theorem OnLines.texts_ne_nil (onLines : OnLines source (node :: rest) texts gaps) : texts ≠ [] := by
  cases onLines <;> simp

theorem joinedLines_cons (some : texts ≠ []) (padding : Padding) (text : List Char) :
    joinedLines padding (text :: texts) =
      text ++ ('\n' :: (String.join padding.line).toList ++ joinedLines padding.next texts) := by
  obtain ⟨next, rest, rfl⟩ := List.exists_cons_of_ne_nil some
  rfl

theorem length_joinedLines_le (onLines : OnLines source nodes texts gaps) (padding : Padding) :
    (joinedLines padding texts).length ≤ (paddedWoven padding texts gaps).length := by
  induction onLines generalizing padding with
  | none => simp [joinedLines, paddedWoven]
  | last line filled => simp [joinedLines, paddedWoven]
  | cons line soft apart between others ih =>
    have below := ih padding.next
    rw [joinedLines_cons others.texts_ne_nil, paddedWoven, spread_gap _ between]
    simp only [List.length_append, List.length_cons]
    omega

theorem paddedWoven_eq_iff (onLines : OnLines source nodes texts gaps) (padding : Padding) :
    paddedWoven padding texts gaps = joinedLines padding texts ↔ ∀ gap ∈ gaps, gap = ['\n'] := by
  induction onLines generalizing padding with
  | none => simp [joinedLines, paddedWoven]
  | last line filled => simp [joinedLines, paddedWoven]
  | @cons node next run text behind before rest texts gaps line soft apart between others ih =>
    rw [joinedLines_cons others.texts_ne_nil, paddedWoven, spread_gap _ between,
      List.forall_mem_cons, ← ih padding.next]
    constructor
    · intro same
      have lengths := congrArg List.length same
      have shorter := length_joinedLines_le others padding.next
      simp only [List.length_append, List.length_cons] at lengths
      obtain rfl : behind = [] := List.eq_nil_of_length_eq_zero (by omega)
      obtain rfl : before = [] := List.eq_nil_of_length_eq_zero (by omega)
      refine ⟨rfl, ?_⟩
      simpa using same
    · rintro ⟨newline, same⟩
      have lengths := congrArg List.length newline
      simp only [List.length_append, List.length_cons, List.length_nil] at lengths
      obtain rfl : behind = [] := List.eq_nil_of_length_eq_zero (by omega)
      obtain rfl : before = [] := List.eq_nil_of_length_eq_zero (by omega)
      rw [same]
      simp

end Lines

section Image

variable {renderer : Renderer} {source : Source} {ancestors : List Place} {earlier later : List Node}
  {span : Span} {attributes : Attributes} {children : List Node} {texts gaps : List (List Char)}

theorem walk_image (follows : renderer.Follows ruleSet) (target : LinkTarget) (page : Page) :
    renderer.walk source ancestors earlier later ⟨.image target, span, attributes, children⟩ page =
      .done (page.applyAll
        (.text "![" :: imageDescription source children ++ targetStrokes target)).1 :=
  walk_inlineLeaf follows rfl (.inl rfl)
    (((KeepsLevels.text "![").cons (keepsLevels_imageDescription source children)).append
      (keepsLevels_targetStrokes target)) rfl rfl page

theorem text_imageDescription (onLines : OnLines source children texts gaps) (page : Page) :
    (page.applyAll (imageDescription source children)).1.text.toList =
      page.text.toList ++ paddedWoven page.padding texts gaps := by
  cases children with
  | nil =>
    cases onLines
    simp [imageDescription, Page.applyAll, paddedWoven]
  | cons node rest =>
    obtain ⟨last, final, sliced⟩ := onLines.sliced
    rw [imageDescription, final]
    dsimp only [List.head?_cons]
    rw [slice_eq sliced, paddedText, linesOf, String.toList_ofList]
    exact text_paddedLines onLines (List.not_mem_nil) page

theorem text_image (onLines : OnLines source children texts gaps) (target : LinkTarget)
    (page : Page) :
    (page.applyAll (.text "![" :: imageDescription source children ++ targetStrokes target)).1.text =
      page.text ++ ("![" ++ String.ofList (paddedWoven page.padding texts gaps) ++
        targetText target) := by
  have written := text_imageDescription onLines (page.write "![")
  obtain ⟨described, applied, _⟩ := Page.applyAll_of_levelsAfter
    (keepsLevels_imageDescription source children (page.write "![").padding.levels)
  rw [applied, Page.padding_write, Page.text_write] at written
  have whole : page.applyAll (.text "![" :: imageDescription source children ++
      targetStrokes target) = (described.writeAll (targetTexts target), none) := by
    change (page.write "![").applyAll (imageDescription source children ++ _) = _
    rw [Page.applyAll_append, applied, targetStrokes_eq]
    exact described.applyAll_texts _
  rw [whole, Page.text_writeAll, ← String.toList_inj]
  simp [written, targetText]

end Image

/-- The description of an image over several lines is its texts with a newline and one padding
    between them just if nothing but the newline parts them in the source: what else stands there
    is written as well, before the newline or behind the padding. -/
theorem imageDescription_padded_once_iff (renderer : Renderer) (priority : Int)
    (alone : DispatchTable.ofProviders [provider priority] = .ok renderer.table)
    (source : Source) (ancestors : List Place) (earlier later : List Node) (target : LinkTarget)
    (span : Span) (attributes : Attributes) (children : List Node) (texts gaps : List (List Char))
    (onLines : OnLines source children texts gaps) (page : Page) :
    let description := paddedWoven page.padding texts gaps
    (∃ next, renderer.walk source ancestors earlier later
        ⟨.image target, span, attributes, children⟩ page = .done next ∧
      next.text = page.text ++ ("![" ++ String.ofList description ++ targetText target)) ∧
    (description = joinedLines page.padding texts ↔ ∀ gap ∈ gaps, gap = ['\n']) := by
  intro description
  exact ⟨⟨_, walk_image (follows alone) target page, text_image onLines target page⟩,
    paddedWoven_eq_iff onLines page.padding⟩

def twoLines (offset : Nat) : List Node :=
  [.leaf (.text { segment := ⟨4, 5⟩, literal := "a", softBreak := true }) ⟨4, 5⟩,
    .leaf (.text { segment := ⟨offset, offset + 1⟩, literal := "b" }) ⟨offset, offset + 1⟩]

theorem onLines_twoLines {source : Source} {offset : Nat} {before : List Char}
    (first : source.slice? ⟨4, 5⟩ = some ['a'])
    (apart : source.slice? ⟨5, offset⟩ = some ('\n' :: before))
    (second : source.slice? ⟨offset, offset + 1⟩ = some ['b']) (oneLine : '\n' ∉ before) :
    OnLines source (twoLines offset) [['a'], ['b']] ['\n' :: before] := by
  rw [← List.nil_append ('\n' :: before)] at apart ⊢
  exact .cons (.leaf first (by decide)) rfl apart ⟨by simp, oneLine⟩
    (.last (.leaf second (by decide)) (by decide))

theorem imageDescription_padded_once_lazyLine :
    let source := Source.ofString "> ![a\nb](c)"
    OnLines source (twoLines 6) [['a'], ['b']] [['\n']] ∧
    ∃ next, ({ table : Renderer }).walk source [] [] []
        ⟨.image ⟨"c", none⟩, ⟨2, 11⟩, {}, twoLines 6⟩ { padding := { levels := ["> "] } } =
          .done next ∧ next.text = "![a\n> b](c)" := by
  intro source
  have onLines : OnLines source (twoLines 6) [['a'], ['b']] [['\n']] :=
    onLines_twoLines rfl rfl rfl (by decide)
  obtain ⟨⟨next, walked, written⟩, padded⟩ := imageDescription_padded_once_iff { table } 500
    (ofProviders_provider 500) source [] [] [] ⟨"c", none⟩ ⟨2, 11⟩ {} (twoLines 6) _ _ onLines
    { padding := { levels := ["> "] } }
  have once := padded.mpr (by simp)
  refine ⟨onLines, next, walked, ?_⟩
  rw [written, once]
  decide

def quotedImage : List Event :=
  [⟨.start .blockQuote, ⟨0, 13⟩⟩, ⟨.start .paragraph, ⟨2, 13⟩⟩, ⟨.start (.image "c" ""), ⟨2, 13⟩⟩,
    ⟨.text "a", ⟨4, 5⟩⟩, ⟨.softBreak, ⟨5, 6⟩⟩, ⟨.text "b", ⟨8, 9⟩⟩, ⟨.close, ⟨2, 13⟩⟩,
    ⟨.close, ⟨2, 13⟩⟩, ⟨.close, ⟨0, 13⟩⟩]

/-- The marker of its second line is copied, and one is written in front of it. -/
theorem description_padded_twice_quotedImage :
    let source := Source.ofString "> ![a\n> b](c)"
    OnLines source (twoLines 8) [['a'], ['b']] [['\n', '>', ' ']] ∧
    joinedLines { levels := ["> "] } [['a'], ['b']] = "a\n> b".toList ∧
    ∃ conversion, Conversion.ofOptions .markdown {} = .ok conversion ∧
      conversion.convert source quotedImage = .ok "> ![a\n> > b](c)" :=
  ⟨onLines_twoLines rfl rfl rfl (by decide), by decide, _,
    Conversion.ofOptions_markdown {}, rfl⟩

end CanonicalMarkdown.Markdown
