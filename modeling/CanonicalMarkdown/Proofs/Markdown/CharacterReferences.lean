import CanonicalMarkdown.Proofs.ConversionSafety
import CanonicalMarkdown.Proofs.Markdown.DestinationReading
import CanonicalMarkdown.Text.Lines

namespace CanonicalMarkdown.Markdown

section Reader

def numberedChar (code : Nat) : Char :=
  if code = 0 ∨ ¬code.isValidChar then '\ufffd' else Char.ofNat code

/-- One to `most` digits and a semicolon: the character of that number, and how long the two are. -/
def readNumber (radix most : Nat) (isDigit : Char → Bool) (text : List Char) :
    Option (Char × Nat) :=
  let digits := text.takeWhile isDigit
  if 0 < digits.length ∧ digits.length ≤ most ∧ (text.drop digits.length).head? = some ';' then
    some (numberedChar (digits.foldl (fun code c => radix * code + Text.hexValue c) 0),
      digits.length + 1)
  else none

def isHexMark (c : Char) : Bool := c = 'x' || c = 'X'

def readNumberReference (text : List Char) : Option (Char × Nat) :=
  if text.head?.any isHexMark then
    (readNumber 16 6 Text.isHexDigit text.tail).map fun found => (found.1, found.2 + 3)
  else (readNumber 10 7 Char.isDigit text).map fun found => (found.1, found.2 + 2)

/-- The character of the reference that the text starts with, and the length of that reference. -/
def reference? : List Char → Option (Char × Nat)
  | '&' :: '#' :: text => readNumberReference text
  | _ => none

def HoldsReference (text : List Char) : Prop := ∃ back, back <:+ text ∧ (reference? back).isSome

def Symbol.isPlain : Symbol → Bool
  | .plain _ => true
  | .escaped _ => false

def plainReference? (text : List Symbol) : Option (Char × Nat) :=
  reference? ((text.takeWhile Symbol.isPlain).map Symbol.char)

/-- Behind `skip` symbols of a reference that has been replaced. -/
def decodeFrom : Nat → List Symbol → List Char
  | _, [] => []
  | skip + 1, _ :: rest => decodeFrom skip rest
  | 0, symbol :: rest =>
    match plainReference? (symbol :: rest) with
    | some (c, length) => c :: decodeFrom (length - 1) rest
    | none => symbol.char :: decodeFrom 0 rest

def decode (text : List Char) : List Char := decodeFrom 0 (symbols text)

def replaceReferences (text : List Char) : List Char := decodeFrom 0 (text.map .plain)

def withoutBrackets : List Char → List Char
  | '<' :: rest => rest.dropLast
  | text => text

def withoutQuotes (text : List Char) : List Char := text.tail.dropLast

end Reader

section Guarded

def isReferenceChar (c : Char) : Bool := c = '&' || c = '#' || c = ';' || c.isAlphanum

/-- Only characters that are part of no reference have a backslash. -/
def SparesReferences (text : List Symbol) : Prop :=
  ∀ c, .escaped c ∈ text → isReferenceChar c = false

theorem isAlphanum_of_isHexDigit {c : Char} (digit : Text.isHexDigit c = true) :
    c.isAlphanum = true := by
  simp only [Text.isHexDigit, Bool.or_eq_true, Bool.and_eq_true, decide_eq_true_eq] at digit
  show ((c.isUpper || c.isLower) || c.isDigit) = true
  rcases digit with (decimal | ⟨first, last⟩) | ⟨first, last⟩
  · simp [decimal]
  · have small : c.isLower = true := Bool.and_eq_true_iff.mpr
      ⟨decide_eq_true first, decide_eq_true (Char.le_trans last (by decide : 'f' ≤ 'z'))⟩
    simp [small]
  · have capital : c.isUpper = true :=
      decide_eq_true ⟨first, Char.le_trans last (by decide : 'F' ≤ 'Z')⟩
    simp [capital]

theorem readNumber_append {radix most : Nat} {isDigit : Char → Bool} {c : Char}
    (other : isDigit c = false) (apart : c ≠ ';') (front back : List Char) :
    readNumber radix most isDigit (front ++ c :: back) = readNumber radix most isDigit front := by
  have digits : (front ++ c :: back).takeWhile isDigit = front.takeWhile isDigit := by
    rw [List.takeWhile_append, List.takeWhile_cons_of_neg (by simp [other]), List.append_nil]
    split
    · rename_i all
      exact ((List.takeWhile_prefix isDigit).eq_of_length all).symm
    · rfl
  have short : (front.takeWhile isDigit).length ≤ front.length :=
    (List.takeWhile_prefix isDigit).length_le
  have stop : ((front ++ c :: back).drop (front.takeWhile isDigit).length).head? = some ';' ↔
      (front.drop (front.takeWhile isDigit).length).head? = some ';' := by
    rw [List.drop_append_of_le_length short]
    cases front.drop (front.takeWhile isDigit).length with
    | nil => simpa using apart
    | cons next more => rfl
  unfold readNumber
  simp only [digits, stop]

theorem ne_of_isReferenceChar {c part : Char} (other : isReferenceChar c = false)
    (inside : isReferenceChar part = true) : c ≠ part := by
  rintro rfl
  rw [other] at inside
  contradiction

theorem readNumberReference_append {c : Char} (other : isReferenceChar c = false)
    (front back : List Char) :
    readNumberReference (front ++ c :: back) = readNumberReference front := by
  have apart : c ≠ ';' := ne_of_isReferenceChar other rfl
  have letter : c.isAlphanum = false := (Bool.or_eq_false_iff.mp other).2
  have digit : c.isDigit = false := (Bool.or_eq_false_iff.mp letter).2
  have hexDigit : Text.isHexDigit c = false :=
    Bool.eq_false_iff.mpr fun digit => by simp [isAlphanum_of_isHexDigit digit] at letter
  unfold readNumberReference
  rw [readNumber_append digit apart]
  cases front with
  | nil =>
    have small : c ≠ 'x' := ne_of_isReferenceChar other rfl
    have capital : c ≠ 'X' := ne_of_isReferenceChar other rfl
    simp [isHexMark, small, capital]
  | cons next more =>
    rw [List.cons_append, List.tail_cons, List.tail_cons, readNumber_append hexDigit apart]
    rfl

theorem reference?_append {c : Char} (other : isReferenceChar c = false) (front back : List Char) :
    reference? (front ++ c :: back) = reference? front := by
  match front with
  | [] =>
    have ampersand : c ≠ '&' := ne_of_isReferenceChar other rfl
    simp [reference?, ampersand]
  | [first] =>
    have sign : c ≠ '#' := ne_of_isReferenceChar other rfl
    simp [reference?, sign]
  | first :: second :: text =>
    by_cases opens : first = '&' ∧ second = '#'
    · obtain ⟨rfl, rfl⟩ := opens
      exact readNumberReference_append other text back
    · simp_all [reference?]

theorem plainReference?_eq {text : List Symbol} (spares : SparesReferences text) :
    plainReference? text = reference? (text.map Symbol.char) := by
  -- The first character with a backslash ends every reference, with or without it.
  have stop := List.head?_dropWhile_not Symbol.isPlain text
  have parts := List.takeWhile_append_dropWhile (p := Symbol.isPlain) (l := text)
  unfold plainReference?
  cases behind : text.dropWhile Symbol.isPlain with
  | nil =>
    rw [behind, List.append_nil] at parts
    rw [parts]
  | cons symbol rest =>
    rw [behind] at stop parts
    cases symbol with
    | plain c => cases stop
    | escaped c =>
      have marked : .escaped c ∈ text := by
        rw [← parts]
        simp
      conv => rhs; rw [← parts, List.map_append, List.map_cons]
      exact (reference?_append (spares c marked) _ _).symm

theorem sparesReferences_plain (text : List Char) : SparesReferences (text.map .plain) := by
  intro c member
  obtain ⟨_, _, same⟩ := List.mem_map.mp member
  cases same

theorem plainReference?_plain (text : List Char) :
    plainReference? (text.map .plain) = reference? text := by
  rw [plainReference?_eq (sparesReferences_plain text)]
  simp [Function.comp_def, Symbol.char]

theorem decodeFrom_eq {text : List Symbol} (spares : SparesReferences text) (skip : Nat) :
    decodeFrom skip text = decodeFrom skip ((text.map Symbol.char).map .plain) := by
  induction text generalizing skip with
  | nil => rfl
  | cons symbol rest ih =>
    have inner : SparesReferences rest :=
      fun c member => spares c (List.mem_cons_of_mem symbol member)
    cases skip with
    | succ skip => exact ih inner skip
    | zero =>
      have found : plainReference? (((symbol :: rest).map Symbol.char).map .plain) =
          plainReference? (symbol :: rest) := by
        rw [plainReference?_plain, plainReference?_eq spares]
      rw [List.map_cons, List.map_cons] at found ⊢
      rw [decodeFrom, decodeFrom, found]
      split
      · rw [ih inner]
      · rw [ih inner]
        rfl

end Guarded

section Replaced

theorem replaceReferences_of_reference {c : Char} {rest : List Char} {found : Char × Nat}
    (reads : reference? (c :: rest) = some found) :
    replaceReferences (c :: rest) =
      found.1 :: decodeFrom (found.2 - 1) (rest.map .plain) := by
  have plain := (plainReference?_plain (c :: rest)).trans reads
  rw [List.map_cons] at plain
  rw [replaceReferences, List.map_cons, decodeFrom, plain]

theorem replaceReferences_cons {c : Char} {rest : List Char}
    (free : reference? (c :: rest) = none) :
    replaceReferences (c :: rest) = c :: replaceReferences rest := by
  have plain := (plainReference?_plain (c :: rest)).trans free
  rw [List.map_cons] at plain
  rw [replaceReferences, List.map_cons, decodeFrom, plain]
  rfl

theorem length_decodeFrom_le (skip : Nat) (text : List Symbol) :
    (decodeFrom skip text).length ≤ text.length - skip := by
  fun_induction decodeFrom skip text with
  | case1 => simp
  | case2 skip symbol rest ih => simpa using ih
  | case3 symbol rest c length reads ih =>
    simp only [List.length_cons]
    omega
  | case4 symbol rest reads ih => simpa using ih

theorem reference?_long {text : List Char} {found : Char × Nat}
    (reads : reference? text = some found) : 2 ≤ found.2 ∧ 2 ≤ text.length := by
  match text with
  | [] => cases reads
  | [first] => simp [reference?] at reads
  | first :: second :: rest =>
    refine ⟨?_, by simp⟩
    by_cases opens : first = '&' ∧ second = '#'
    · obtain ⟨rfl, rfl⟩ := opens
      have number : readNumberReference rest = some found := reads
      unfold readNumberReference at number
      split at number
      all_goals
        obtain ⟨digits, _, rfl⟩ := Option.map_eq_some_iff.mp number
        exact Nat.le_add_left_of_le (by decide)
    · simp_all [reference?]

theorem holdsReference_cons {c : Char} {rest : List Char} :
    HoldsReference (c :: rest) ↔ (reference? (c :: rest)).isSome ∨ HoldsReference rest := by
  constructor
  · rintro ⟨back, suffix, reads⟩
    rcases List.suffix_cons_iff.mp suffix with rfl | inner
    · exact .inl reads
    · exact .inr ⟨back, inner, reads⟩
  · rintro (reads | ⟨back, inner, reads⟩)
    · exact ⟨c :: rest, List.suffix_rfl, reads⟩
    · exact ⟨back, inner.trans (List.suffix_cons c rest), reads⟩

theorem length_replaceReferences_lt {text : List Char} (holds : HoldsReference text) :
    (replaceReferences text).length < text.length := by
  induction text with
  | nil =>
    obtain ⟨back, suffix, reads⟩ := holds
    rw [List.suffix_nil.mp suffix] at reads
    cases reads
  | cons c rest ih =>
    cases first : reference? (c :: rest) with
    | some found =>
      obtain ⟨long, behind⟩ := reference?_long first
      have left := length_decodeFrom_le (found.2 - 1) (rest.map .plain)
      rw [replaceReferences_of_reference first]
      simp only [List.length_cons, List.length_map] at behind left ⊢
      omega
    | none =>
      have inner : HoldsReference rest := by
        rcases holdsReference_cons.mp holds with reads | inner
        · rw [first] at reads
          cases reads
        · exact inner
      rw [replaceReferences_cons first]
      exact Nat.succ_lt_succ (ih inner)

theorem replaceReferences_eq_iff (text : List Char) :
    replaceReferences text = text ↔ ¬HoldsReference text := by
  constructor
  · intro same holds
    have shorter := length_replaceReferences_lt holds
    rw [same] at shorter
    exact Nat.lt_irrefl _ shorter
  · intro free
    induction text with
    | nil => rfl
    | cons c rest ih =>
      rw [holdsReference_cons, not_or] at free
      have first : reference? (c :: rest) = none := by simpa using free.1
      rw [replaceReferences_cons first, ih free.2]

end Replaced

section Written

theorem isReferenceChar_of_takesBackslash {c : Char} (takes : takesBackslash c = true) :
    isReferenceChar c = false := by
  rcases takesBackslash_iff.mp takes with rfl | rfl | rfl | rfl | rfl | rfl <;> decide

/-- Backslashes that spare the references leave the same ones to replace. -/
theorem decode_eq_replaceReferences {text original : List Char}
    (spares : SparesReferences (symbols text)) (same : (symbols text).map Symbol.char = original) :
    decode text = replaceReferences original := by
  rw [decode, decodeFrom_eq spares, same, replaceReferences]

theorem decode_escapeWith {special : Char → Bool}
    (takes : ∀ c, special c = true → takesBackslash c = true)
    (backslash : special '\\' = true) (text : List Char) :
    decode (escapeWith special text) = replaceReferences text := by
  have read : symbols (escapeWith special text) = text.map (markWith special) := by
    simpa [symbols] using symbols_escapeWith takes backslash text []
  refine decode_eq_replaceReferences ?_ (read ▸ map_char_markWith text)
  intro c member
  rw [read] at member
  obtain ⟨d, _, marked⟩ := List.mem_map.mp member
  unfold markWith at marked
  split at marked
  · rename_i marks
    cases marked
    exact isReferenceChar_of_takesBackslash (takes c marks)
  · cases marked

theorem symbols_bareDestination_spares (balanced : Bool) (text : List Char) :
    SparesReferences (symbols (bareDestination balanced text)) ∧
      (symbols (bareDestination balanced text)).map Symbol.char = text := by
  induction text with
  | nil => exact ⟨sparesReferences_plain [], rfl⟩
  | cons c rest ih =>
    have step := @symbols_bareDestination_cons balanced c rest [] fun _ _ => rfl
    rw [List.append_nil, List.append_nil] at step
    rw [step]
    refine ⟨fun d member => ?_, by rw [List.map_cons, char_bareSymbol, ih.2]⟩
    rcases List.mem_cons.mp member with first | inner
    · unfold bareSymbol at first
      split at first
      · rename_i escapes
        cases first
        exact isReferenceChar_of_takesBackslash (takesBackslash_of_escapesBare escapes)
      · cases first
    · exact ih.1 d inner

theorem decode_bareDestination (balanced : Bool) (text : List Char) :
    decode (bareDestination balanced text) = replaceReferences text :=
  decode_eq_replaceReferences (symbols_bareDestination_spares balanced text).1
    (symbols_bareDestination_spares balanced text).2

theorem withoutBrackets_of_no_bracket {text : List Char} (first : text.head? ≠ some '<') :
    withoutBrackets text = text := by
  unfold withoutBrackets
  split
  · simp at first
  · rfl

theorem decode_destinationChars (destination : List Char) (hasTitle : Bool) :
    decode (withoutBrackets (destinationChars destination hasTitle)) =
      replaceReferences destination := by
  unfold destinationChars
  split
  · rename_i empty
    subst empty
    cases hasTitle <;> rfl
  · rename_i filled
    split
    · rw [withoutBrackets, List.dropLast_concat]
      exact decode_escapeWith takesBackslash_of_bracketed rfl destination
    · rename_i bare
      rw [Bool.not_eq_true] at bare
      have first : (bareDestination (parenthesesBalance 0 destination) destination).head? ≠
          some '<' := by
        simpa using head?_bareDestination filled bare []
      rw [withoutBrackets_of_no_bracket first, decode_bareDestination]

theorem decode_titleChars (title : List Char) :
    decode (withoutQuotes (titleChars title)) = replaceReferences title := by
  rw [titleChars, withoutQuotes, List.tail_cons, List.dropLast_concat]
  exact decode_escapeWith takesBackslash_of_quoted rfl title

end Written

/-- What is written for a destination or title decodes to it exactly if it holds no numeric
    reference. -/
theorem destination_title_decode_iff (destination title : String) (hasTitle : Bool) :
    (decode (withoutBrackets (destinationText destination hasTitle).toList) =
        destination.toList ↔ ¬HoldsReference destination.toList) ∧
      (decode (withoutQuotes (titleText title).toList) = title.toList ↔
        ¬HoldsReference title.toList) := by
  rw [destinationText, String.toList_ofList, decode_destinationChars, titleText,
    String.toList_ofList, decode_titleChars]
  exact ⟨replaceReferences_eq_iff _, replaceReferences_eq_iff _⟩

def referenceLink : List Event :=
  [⟨.start .paragraph, ⟨0, 11⟩⟩, ⟨.start (.link "&#65;" ""), ⟨0, 11⟩⟩, ⟨.text "a", ⟨1, 2⟩⟩,
    ⟨.close, ⟨0, 11⟩⟩, ⟨.close, ⟨0, 11⟩⟩]

/-- What is written for it has lost the backslash, and a letter is read back. -/
theorem decoded_twice_referenceLink :
    (∃ conversion, Conversion.ofOptions .markdown {} = .ok conversion ∧
      conversion.convert (.ofString "[a](\\&#65;)") referenceLink = .ok "[a](&#65;)") ∧
    decode (withoutBrackets "\\&#65;".toList) = "&#65;".toList ∧
    destinationText "&#65;" false = "&#65;" ∧
    decode (withoutBrackets "&#65;".toList) = "A".toList ∧
    titleText "&#x41;" = "\"&#x41;\"" ∧
    decode (withoutQuotes "\"&#x41;\"".toList) = "A".toList :=
  ⟨⟨_, Conversion.ofOptions_markdown {}, rfl⟩, by decide +kernel, by decide +kernel,
    by decide +kernel, by decide +kernel, by decide +kernel⟩

end CanonicalMarkdown.Markdown
