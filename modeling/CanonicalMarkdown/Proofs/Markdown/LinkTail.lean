import CanonicalMarkdown.Proofs.ConversionSafety
import CanonicalMarkdown.Proofs.Entries
import CanonicalMarkdown.Proofs.Markdown.DestinationReading

namespace CanonicalMarkdown.Markdown

section Reader

def isBlank (c : Char) : Bool := c = ' ' || c = '\t' || isLineEnd c

def Symbol.isBlank : Symbol → Bool
  | .plain c => Markdown.isBlank c
  | .escaped _ => false

def skipBlanks (text : List Symbol) : List Symbol := text.dropWhile Symbol.isBlank

def readClosing (text : List Symbol) : Option (List Symbol) :=
  match skipBlanks text with
  | .plain ')' :: rest => some rest
  | _ => none

def readTitleAndClosing (text : List Symbol) : Option (Option (List Symbol) × List Symbol) :=
  if text.head?.any Symbol.isBlank && (skipBlanks text).head? = some (.plain '"') then
    (readTitle (skipBlanks text)).bind fun found =>
      (readClosing found.2).map fun rest => (some found.1, rest)
  else (readClosing text).map fun rest => (none, rest)

/-- Destination and title in parentheses, behind the closing bracket of a link's text. -/
def readTail : List Symbol → Option (List Symbol × Option (List Symbol) × List Symbol)
  | .plain ']' :: .plain '(' :: text =>
    (readDestination (skipBlanks text)).bind fun found =>
      (readTitleAndClosing found.2).map fun behind => (found.1, behind)
  | _ => none

def readTail? (text : List Char) : Option (List Char × Option (List Char) × List Char) :=
  (readTail (symbols text)).map fun found =>
    (found.1.map Symbol.char, found.2.1.map (·.map Symbol.char), found.2.2.flatMap Symbol.written)

end Reader

section Writer

def targetTexts (target : LinkTarget) : List String :=
  ["](", destinationText target.destination target.title.isSome]
    ++ (match target.title with
      | some title => [" ", titleText title]
      | none => [])
    ++ [")"]

def targetText (target : LinkTarget) : String := String.join (targetTexts target)

theorem targetStrokes_eq (target : LinkTarget) :
    targetStrokes target = (targetTexts target).map .text := by
  unfold targetStrokes targetTexts
  cases target.title <;> rfl

theorem answer_link (view : View) (target : LinkTarget) (link : view.node.payload = .link target)
    (start : Page) : ∃ page, start.answer (rule view .leave start) = (page, .ok .descend) ∧
      page.text = start.text ++ targetText target := by
  refine ⟨start.writeAll (targetTexts target), ?_, start.text_writeAll _⟩
  simp only [rule, Rule.ofReplies, leave, link, Page.answer, Reply.descend, targetStrokes_eq,
    Page.applyAll_texts]

theorem answer_image (view : View) (target : LinkTarget)
    (image : view.node.payload = .image target) (start : Page) :
    ∃ page description, start.answer (rule view .enter start) = (page, .ok .skipChildren) ∧
      page.text = start.text ++ (description ++ targetText target) := by
  let described := .text "![" :: imageDescription view.source view.node.children
  have keeps : KeepsLevels (described ++ targetStrokes target) :=
    ((KeepsLevels.text "![").cons (keepsLevels_imageDescription _ _)).append
      (keepsLevels_targetStrokes target)
  obtain ⟨page, applied, _⟩ := Page.applyAll_of_levelsAfter (keeps start.padding.levels)
  obtain ⟨description, written⟩ := Page.text_of_append_texts (targetStrokes_eq target ▸ applied)
  refine ⟨page, description, ?_, written⟩
  simp only [rule, Rule.ofReplies, enter, image, Page.answer, Reply.skip]
  rw [applied]

def behindDestination (title : Option String) (following : List Char) : List Char :=
  match title with
  | some title => ' ' :: (titleChars title.toList ++ ')' :: following)
  | none => ')' :: following

theorem targetText_append (target : LinkTarget) (following : List Char) :
    (targetText target).toList ++ following =
      ']' :: '(' :: (destinationChars target.destination.toList target.title.isSome ++
        behindDestination target.title following) := by
  cases given : target.title <;>
    simp [targetText, targetTexts, behindDestination, destinationText, titleText, given]

end Writer

theorem isBlank_of_not_endsBare {c : Char} (inner : endsBare c = false) : isBlank c = false := by
  refine Bool.eq_false_iff.mpr fun blank => ?_
  have blanks : ((c = ' ' ∨ c = '\t') ∨ c = '\n' ∨ c = '\r') := by
    simpa [isBlank, isLineEnd] using blank
  rcases blanks with (rfl | rfl) | rfl | rfl <;> contradiction

theorem skipBlanks_symbols {text : List Char} (visible : text.head?.any isBlank = false) :
    skipBlanks (symbols text) = symbols text := by
  have first : (symbols text).head?.any Symbol.isBlank = false := by
    cases text with
    | nil => rfl
    | cons c rest =>
      by_cases backslash : c = '\\'
      · subst backslash
        cases rest with
        | nil => rfl
        | cons next more =>
          rw [symbols]
          split <;> rfl
      · rw [symbols_cons backslash]
        exact visible
  unfold skipBlanks
  generalize symbols text = read at first
  cases read with
  | nil => rfl
  | cons symbol more => exact List.dropWhile_cons_of_neg (by simpa using first)

theorem head?_destinationChars {destination behind : List Char} {hasTitle : Bool}
    (opens : hasTitle = false → behind.head?.any isBlank = false) :
    (destinationChars destination hasTitle ++ behind).head?.any isBlank = false := by
  unfold destinationChars
  split
  · cases hasTitle with
    | true => rfl
    | false => exact opens rfl
  · rename_i filled
    split
    · rfl
    · rename_i visible
      obtain ⟨c, rest, rfl⟩ := List.exists_cons_of_ne_nil filled
      have inner : needsBrackets c = false := by
        rw [List.any_cons, Bool.or_eq_true, not_or] at visible
        exact Bool.eq_false_iff.mpr visible.1
      rw [bareDestination_cons, bareSymbol]
      split
      · rfl
      · exact isBlank_of_not_endsBare (endsBare_of_not_needsBrackets inner)

theorem readClosing_parenthesis (following : List Char) :
    readClosing (symbols (')' :: following)) = some (symbols following) := by
  rw [readClosing, skipBlanks_symbols rfl, symbols_cons (by decide)]
  rfl

theorem readTitleAndClosing_behind (title : Option String) (following : List Char) :
    ∃ content, readTitleAndClosing (symbols (behindDestination title following)) =
        some (content, symbols following) ∧
      content.map (·.map Symbol.char) = title.map String.toList := by
  cases title with
  | none =>
    refine ⟨none, ?_, rfl⟩
    rw [behindDestination, readTitleAndClosing, if_neg, readClosing_parenthesis, Option.map_some]
    rw [symbols_cons (by decide)]
    simp [Symbol.isBlank, isBlank, isLineEnd]
  | some title =>
    obtain ⟨content, reads, same⟩ := readTitle_titleChars title.toList (')' :: following)
    refine ⟨some content, ?_, congrArg some same⟩
    let quoted := titleChars title.toList ++ ')' :: following
    have first : (symbols quoted).head? = some (.plain '"') := by
      rw [show quoted = '"' :: quoted.tail from rfl, symbols_cons (by decide)]
      rfl
    have skips : skipBlanks (.plain ' ' :: symbols quoted) = symbols quoted :=
      (List.dropWhile_cons_of_pos rfl).trans (skipBlanks_symbols rfl)
    rw [behindDestination, symbols_cons (by decide), readTitleAndClosing, skips, first]
    simp only [List.head?_cons, Option.any_some, Symbol.isBlank]
    rw [if_pos (by decide), reads, Option.bind_some, readClosing_parenthesis, Option.map_some]

def endsInBackslash (target : LinkTarget) : Bool :=
  target.title.isNone && !target.destination.toList.any needsBrackets &&
    target.destination.toList.getLast? = some '\\'

theorem endsInBackslash_iff (target : LinkTarget) :
    endsInBackslash target = true ↔
      target.title = none ∧ target.destination.toList.any needsBrackets = false ∧
        target.destination.toList.getLast? = some '\\' := by
  simp [endsInBackslash, and_assoc]

theorem readTail_symbols (text : List Char) (visible : text.head?.any isBlank = false) :
    readTail (symbols (']' :: '(' :: text)) =
      (readDestination (symbols text)).bind fun found =>
        (readTitleAndClosing found.2).map fun behind => (found.1, behind) := by
  rw [symbols_cons (by decide), symbols_cons (by decide), readTail, skipBlanks_symbols visible]

theorem head?_target_visible (target : LinkTarget) (following : List Char) :
    (destinationChars target.destination.toList target.title.isSome ++
      behindDestination target.title following).head?.any isBlank = false := by
  refine head?_destinationChars fun untitled => ?_
  rw [Option.isSome_eq_false_iff, Option.isNone_iff_eq_none] at untitled
  rw [untitled]
  rfl

theorem readTail?_targetText {target : LinkTarget}
    (oneLine : ∀ c ∈ target.destination.toList, isLineEnd c = false)
    (apart : endsInBackslash target = false) (following : List Char) :
    readTail? ((targetText target).toList ++ following) =
      some (target.destination.toList, target.title.map String.toList, following) := by
  have ends : EndsDestination (behindDestination target.title following) := by
    cases target.title <;> rfl
  have parted : target.destination.toList.any needsBrackets = false →
      target.destination.toList.getLast? = some '\\' →
      (behindDestination target.title following).head?.any isAsciiPunctuation = false := by
    intro bare backslash
    cases given : target.title with
    | some title => rfl
    | none => simp [endsInBackslash, given, bare, backslash] at apart
  obtain ⟨content, reads, same⟩ :=
    readDestination_destinationChars target.title.isSome oneLine ends parted
  obtain ⟨shown, closes, sameTitle⟩ := readTitleAndClosing_behind target.title following
  rw [readTail?, targetText_append, readTail_symbols _ (head?_target_visible target following),
    reads, Option.bind_some, closes]
  simp [same, sameTitle, flatMap_written_symbols]

theorem readBare_past_backslash {balanced : Bool} {text : List Char} {depth : Nat}
    (backslash : text.getLast? = some '\\') (following : List Char)
    {content behind : List Symbol}
    (reads : readBare depth (symbols (bareDestination balanced text ++ ')' :: following)) =
      some (content, behind)) : content.map Symbol.char ≠ text := by
  induction text generalizing depth content with
  | nil => cases backslash
  | cons c rest ih =>
    cases rest with
    | nil =>
      obtain rfl : c = '\\' := Option.some.inj backslash
      have taken : symbols (bareDestination balanced ['\\'] ++ ')' :: following) =
          .escaped ')' :: symbols following := symbols_escaped (by decide) following
      rw [taken] at reads
      rcases readBare_cons_eq_some reads with rfl | ⟨_, more, _, rfl⟩
      · simp
      · simp [Symbol.char]
    | cons next rest =>
      have inner : c = '\\' → next :: rest = [] →
          (')' :: following).head?.any isAsciiPunctuation = false := fun _ last => by cases last
      rw [symbols_bareDestination_cons inner] at reads
      rcases readBare_cons_eq_some reads with rfl | ⟨inside, more, readsRest, rfl⟩
      · simp
      · intro same
        exact ih backslash readsRest (List.cons.inj same).2

theorem readTail?_endsInBackslash {target : LinkTarget} (clashes : endsInBackslash target = true)
    (following : List Char) :
    readTail? ((targetText target).toList ++ following) ≠
      some (target.destination.toList, target.title.map String.toList, following) := by
  obtain ⟨untitled, bare, backslash⟩ := (endsInBackslash_iff target).mp clashes
  intro reads
  have filled : target.destination.toList ≠ [] := by
    intro empty
    rw [empty] at backslash
    cases backslash
  rw [readTail?, targetText_append, readTail_symbols _ (head?_target_visible target following),
    readDestination_bare _ filled bare, untitled] at reads
  obtain ⟨tail, found, same⟩ := Option.map_eq_some_iff.mp reads
  obtain ⟨⟨content, behind⟩, readsBare, closes⟩ := Option.bind_eq_some_iff.mp found
  obtain ⟨closing, _, rfl⟩ := Option.map_eq_some_iff.mp closes
  exact readBare_past_backslash backslash following readsBare (congrArg Prod.fst same)

/-- The tail of a link or image reads back and ends at its closing parenthesis, whatever follows,
    unless a bare destination without a title ends in a backslash. -/
theorem target_reads_back_iff (target : LinkTarget)
    (oneLine : ∀ c ∈ target.destination.toList, isLineEnd c = false) :
    (∀ (view : View) (start : Page), view.node.payload = .link target →
      ∃ page, start.answer (rule view .leave start) = (page, .ok .descend) ∧
        page.text = start.text ++ targetText target) ∧
    (∀ (view : View) (start : Page), view.node.payload = .image target →
      ∃ page description, start.answer (rule view .enter start) = (page, .ok .skipChildren) ∧
        page.text = start.text ++ (description ++ targetText target)) ∧
    ∀ following : List Char, readTail? ((targetText target).toList ++ following) =
        some (target.destination.toList, target.title.map String.toList, following) ↔
      ¬(target.title = none ∧ target.destination.toList.any needsBrackets = false ∧
        target.destination.toList.getLast? = some '\\') := by
  refine ⟨fun view start link => answer_link view target link start,
    fun view start image => answer_image view target image start, fun following => ?_⟩
  rw [← endsInBackslash_iff]
  cases ending : endsInBackslash target with
  | true => simpa using readTail?_endsInBackslash ending following
  | false => simpa using readTail?_targetText oneLine ending following

theorem target_reads_back_titled :
    let target : LinkTarget := ⟨"(b\\", some "\"t)"⟩
    (∀ c ∈ target.destination.toList, isLineEnd c = false) ∧
    targetText target = "](\\(b\\ \"\\\"t)\")" ∧
    readTail? "](\\(b\\ \"\\\"t)\") c)".toList =
      some ("(b\\".toList, some "\"t)".toList, " c)".toList) := by
  intro target
  have lines : target.destination.toList.all (fun c => !isLineEnd c) = true := by decide +kernel
  have oneLine : ∀ c ∈ target.destination.toList, isLineEnd c = false := fun c member => by
    simpa using List.all_eq_true.mp lines c member
  obtain ⟨_, _, reads_iff⟩ := target_reads_back_iff target oneLine
  have reads := (reads_iff " c)".toList).mpr fun clashes => by cases clashes.1
  have written : targetText target = "](\\(b\\ \"\\\"t)\")" := by decide +kernel
  rw [written] at reads
  exact ⟨oneLine, written, reads⟩

def backslashLink : List Event :=
  [⟨.start .paragraph, ⟨0, 8⟩⟩, ⟨.start (.link "b\\" ""), ⟨0, 8⟩⟩, ⟨.text "a", ⟨1, 2⟩⟩,
    ⟨.close, ⟨0, 8⟩⟩, ⟨.close, ⟨0, 8⟩⟩]

/-- What is written for it is no link, or one with another destination if a parenthesis follows. -/
theorem target_lost_backslashLink :
    (∃ conversion, Conversion.ofOptions .markdown {} = .ok conversion ∧
      conversion.convert (.ofString "[a](b\\\\)") backslashLink = .ok "[a](b\\)") ∧
    targetText ⟨"b\\", none⟩ = "](b\\)" ∧
    readTail? "](b\\)".toList = none ∧
    readTail? "](b\\))".toList = some ("b)".toList, none, []) :=
  ⟨⟨_, Conversion.ofOptions_markdown {}, rfl⟩, by decide +kernel, by decide +kernel,
    by decide +kernel⟩

end CanonicalMarkdown.Markdown
