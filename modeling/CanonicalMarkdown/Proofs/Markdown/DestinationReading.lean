import CanonicalMarkdown.Markdown.Destination

namespace CanonicalMarkdown.Markdown

inductive Symbol
  | plain (c : Char)
  | escaped (c : Char)
deriving DecidableEq, Repr

namespace Symbol

def char : Symbol → Char
  | plain c | escaped c => c

def written : Symbol → List Char
  | plain c => [c]
  | escaped c => ['\\', c]

end Symbol

/-- A backslash escapes ASCII punctuation. In front of anything else it stands for itself. -/
def symbols : List Char → List Symbol
  | [] => []
  | '\\' :: c :: rest =>
    if isAsciiPunctuation c then .escaped c :: symbols rest
    else .plain '\\' :: symbols (c :: rest)
  | c :: rest => .plain c :: symbols rest

theorem flatMap_written_symbols (text : List Char) :
    (symbols text).flatMap Symbol.written = text := by
  fun_induction symbols text <;> simp_all [Symbol.written]

theorem symbols_cons {c : Char} (visible : c ≠ '\\') (rest : List Char) :
    symbols (c :: rest) = .plain c :: symbols rest := by
  rw [symbols]
  intro next more backslash
  exact absurd backslash visible

theorem symbols_escaped {c : Char} (punctuation : isAsciiPunctuation c = true)
    (rest : List Char) : symbols ('\\' :: c :: rest) = .escaped c :: symbols rest := by
  rw [symbols, if_pos punctuation]

theorem symbols_backslash {rest : List Char} (apart : rest.head?.any isAsciiPunctuation = false) :
    symbols ('\\' :: rest) = .plain '\\' :: symbols rest := by
  cases rest with
  | nil => rfl
  | cons c more =>
    have other : isAsciiPunctuation c = false := apart
    rw [symbols, if_neg (by simp [other])]

/-- The characters that are ever written with a backslash. -/
def takesBackslash (c : Char) : Bool :=
  c = '(' || c = ')' || c = '<' || c = '>' || c = '"' || c = '\\'

theorem takesBackslash_iff {c : Char} : takesBackslash c = true ↔
    c = '(' ∨ c = ')' ∨ c = '<' ∨ c = '>' ∨ c = '"' ∨ c = '\\' := by
  simp [takesBackslash, or_assoc]

theorem isAsciiPunctuation_of_takesBackslash {c : Char} (takes : takesBackslash c = true) :
    isAsciiPunctuation c = true := by
  rcases takesBackslash_iff.mp takes with rfl | rfl | rfl | rfl | rfl | rfl <;> decide

section Escapes

variable {special : Char → Bool}

def markWith (special : Char → Bool) (c : Char) : Symbol :=
  if special c then .escaped c else .plain c

theorem char_markWith (c : Char) : (markWith special c).char = c := by
  unfold markWith
  split <;> rfl

theorem map_char_markWith (text : List Char) :
    (text.map (markWith special)).map Symbol.char = text := by
  simp [Function.comp_def, char_markWith]

theorem plain_notMem_markWith {stop : Char} (escaped : special stop = true) (text : List Char) :
    .plain stop ∉ text.map (markWith special) := by
  intro member
  obtain ⟨c, _, same⟩ := List.mem_map.mp member
  have unchanged : c = stop := by
    rw [← @char_markWith special c, same]
    rfl
  rw [unchanged, markWith, if_pos escaped] at same
  cases same

theorem symbols_escapeWith (takes : ∀ c, special c = true → takesBackslash c = true)
    (backslash : special '\\' = true) (text rest : List Char) :
    symbols (escapeWith special text ++ rest) = text.map (markWith special) ++ symbols rest := by
  induction text with
  | nil => rfl
  | cons c more ih =>
    by_cases marked : special c = true
    · have step : escapeWith special (c :: more) ++ rest =
          '\\' :: c :: (escapeWith special more ++ rest) := by simp [escapeWith, marked]
      rw [step, symbols_escaped (isAsciiPunctuation_of_takesBackslash (takes c marked)), ih]
      simp [markWith, marked]
    · have visible : c ≠ '\\' := fun same => marked (same ▸ backslash)
      have step : escapeWith special (c :: more) ++ rest =
          c :: (escapeWith special more ++ rest) := by simp [escapeWith, marked]
      rw [step, symbols_cons visible, ih]
      simp [markWith, marked]

end Escapes

def readUntil (stop : Char) : List Symbol → Option (List Symbol × List Symbol)
  | [] => none
  | symbol :: rest =>
    if symbol = .plain stop then some ([], rest)
    else (readUntil stop rest).map fun found => (symbol :: found.1, found.2)

theorem readUntil_append {stop : Char} {content : List Symbol} (inside : .plain stop ∉ content)
    (rest : List Symbol) :
    readUntil stop (content ++ .plain stop :: rest) = some (content, rest) := by
  induction content with
  | nil => simp [readUntil]
  | cons symbol more ih =>
    have other : symbol ≠ .plain stop := fun same => inside (by simp [same])
    rw [List.cons_append, readUntil, if_neg other,
      ih fun member => inside (List.mem_cons_of_mem symbol member)]
    rfl

def isLineEnd (c : Char) : Bool := c = '\n' || c = '\r'

/-- Behind the opening bracket: the content up to the closing one, which may hold no line end and no
    plain bracket. -/
def readBracketed (text : List Symbol) : Option (List Symbol × List Symbol) :=
  (readUntil '>' text).filter fun found =>
    found.1.all fun symbol => symbol ≠ .plain '<' && !isLineEnd symbol.char

def endsBare (c : Char) : Bool := c = ' ' || c.toNat < 0x20 || c.toNat = 0x7f

/-- How many parentheses are open behind the symbol; none if it ends the destination. -/
def Symbol.depth? (depth : Nat) : Symbol → Option Nat
  | .plain c =>
    if c = '(' then some (depth + 1)
    else if c = ')' then if depth = 0 then none else some (depth - 1)
    else if endsBare c then none else some depth
  | .escaped _ => some depth

/-- A destination without brackets, whose plain parentheses have to balance. -/
def readBare (depth : Nat) : List Symbol → Option (List Symbol × List Symbol)
  | [] => if depth = 0 then some ([], []) else none
  | symbol :: rest =>
    match symbol.depth? depth with
    | none => if depth = 0 then some ([], symbol :: rest) else none
    | some inside => (readBare inside rest).map fun found => (symbol :: found.1, found.2)

theorem readBare_cons_eq_some {depth : Nat} {symbol : Symbol} {rest content behind : List Symbol}
    (reads : readBare depth (symbol :: rest) = some (content, behind)) :
    content = [] ∨
      ∃ inside more, readBare inside rest = some (more, behind) ∧ content = symbol :: more := by
  rw [readBare] at reads
  split at reads
  · split at reads
    · cases reads
      exact .inl rfl
    · cases reads
  · rename_i inside _
    obtain ⟨found, readsRest, same⟩ := Option.map_eq_some_iff.mp reads
    cases same
    exact .inr ⟨inside, found.1, readsRest, rfl⟩

def readDestination (text : List Symbol) : Option (List Symbol × List Symbol) :=
  if text.head? = some (.plain '<') then readBracketed text.tail else readBare 0 text

def readTitle (text : List Symbol) : Option (List Symbol × List Symbol) :=
  if text.head? = some (.plain '"') then readUntil '"' text.tail else none

/-- The value read, without its backslashes, and the text behind it. -/
def valueRead (found : List Symbol × List Symbol) : List Char × List Char :=
  (found.1.map Symbol.char, found.2.flatMap Symbol.written)

section Bare

def escapesBare (balanced : Bool) (c : Char) (rest : List Char) : Bool :=
  if c = '(' || c = ')' then !balanced else c = '\\' && rest.head?.any isAsciiPunctuation

def bareSymbol (balanced : Bool) (c : Char) (rest : List Char) : Symbol :=
  if escapesBare balanced c rest then .escaped c else .plain c

theorem char_bareSymbol (balanced : Bool) (c : Char) (rest : List Char) :
    (bareSymbol balanced c rest).char = c := by
  unfold bareSymbol
  split <;> rfl

theorem bareDestination_cons (balanced : Bool) (c : Char) (rest : List Char) :
    bareDestination balanced (c :: rest) =
      (bareSymbol balanced c rest).written ++ bareDestination balanced rest := by
  rw [bareDestination]
  show (if escapesBare balanced c rest then _ else _) = _
  unfold bareSymbol
  split <;> rfl

variable {balanced : Bool} {c : Char} {rest behind : List Char}

theorem takesBackslash_of_escapesBare (escapes : escapesBare balanced c rest = true) :
    takesBackslash c = true := by
  unfold escapesBare at escapes
  split at escapes
  · rename_i parenthesis
    simp [takesBackslash, parenthesis]
  · have backslash := of_decide_eq_true (Bool.and_eq_true_iff.mp escapes).1
    rw [backslash]
    decide

theorem head?_behind_backslash (plain : escapesBare balanced '\\' rest = false)
    (apart : rest = [] → behind.head?.any isAsciiPunctuation = false) :
    (bareDestination balanced rest ++ behind).head?.any isAsciiPunctuation = false := by
  -- A backslash written without one of its own stands in front of no punctuation, unless what
  -- stands behind the destination is punctuation.
  have next : rest.head?.any isAsciiPunctuation = false := by simpa [escapesBare] using plain
  cases rest with
  | nil => exact apart rfl
  | cons d more =>
    have other : isAsciiPunctuation d = false := next
    have unescaped : escapesBare balanced d more = false := by
      refine Bool.eq_false_iff.mpr fun escapes => ?_
      rw [isAsciiPunctuation_of_takesBackslash (takesBackslash_of_escapesBare escapes)] at other
      contradiction
    rw [bareDestination_cons, bareSymbol, unescaped]
    exact other

theorem symbols_bareDestination_cons
    (apart : c = '\\' → rest = [] → behind.head?.any isAsciiPunctuation = false) :
    symbols (bareDestination balanced (c :: rest) ++ behind) =
      bareSymbol balanced c rest :: symbols (bareDestination balanced rest ++ behind) := by
  rw [bareDestination_cons, List.append_assoc, bareSymbol]
  cases escapes : escapesBare balanced c rest with
  | true =>
    have takes := takesBackslash_of_escapesBare escapes
    exact symbols_escaped (isAsciiPunctuation_of_takesBackslash takes) _
  | false =>
    by_cases backslash : c = '\\'
    · subst backslash
      exact symbols_backslash (head?_behind_backslash escapes (apart rfl))
    · exact symbols_cons backslash _

theorem head?_bareDestination {text : List Char} (filled : text ≠ [])
    (bare : text.any needsBrackets = false) (behind : List Char) :
    (bareDestination balanced text ++ behind).head? ≠ some '<' := by
  obtain ⟨c, rest, rfl⟩ := List.exists_cons_of_ne_nil filled
  have inner : c ≠ '<' := by
    rintro rfl
    contradiction
  rw [bareDestination_cons, bareSymbol]
  split
  · simp [Symbol.written]
  · simpa [Symbol.written] using inner

def FitsDepth (balanced : Bool) (depth : Nat) (text : List Char) : Prop :=
  if balanced then parenthesesBalance depth text = true else depth = 0

theorem endsBare_of_not_needsBrackets (visible : needsBrackets c = false) : endsBare c = false := by
  simp only [needsBrackets, Unicode.isControl, Bool.or_eq_false_iff, decide_eq_false_iff_not,
    Bool.and_eq_false_iff] at visible
  obtain ⟨⟨⟨space, control⟩, _⟩, _⟩ := visible
  have inside : c ≠ ' ' := by
    rintro rfl
    rw [Unicode.isWhiteSpace_space] at space
    contradiction
  simp only [endsBare, Bool.or_eq_false_iff, decide_eq_false_iff_not]
  exact ⟨⟨inside, by omega⟩, by omega⟩

theorem depth?_bareSymbol {depth : Nat} (visible : needsBrackets c = false)
    (fits : FitsDepth balanced depth (c :: rest)) :
    ∃ inside, (bareSymbol balanced c rest).depth? depth = some inside ∧
      FitsDepth balanced inside rest := by
  have inner := endsBare_of_not_needsBrackets visible
  by_cases opening : c = '('
  · subst opening
    cases balanced with
    | true => exact ⟨depth + 1, rfl, fits⟩
    | false => exact ⟨depth, rfl, fits⟩
  by_cases closing : c = ')'
  · subst closing
    cases balanced with
    | true =>
      obtain ⟨within, balance⟩ : depth ≠ 0 ∧ parenthesesBalance (depth - 1) rest = true := by
        simpa [FitsDepth, parenthesesBalance] using fits
      refine ⟨depth - 1, ?_, balance⟩
      simp [bareSymbol, escapesBare, Symbol.depth?, within]
    | false => exact ⟨depth, rfl, fits⟩
  have same : FitsDepth balanced depth rest := by
    cases balanced with
    | true =>
      have step : parenthesesBalance depth (c :: rest) = parenthesesBalance depth rest := by
        rw [parenthesesBalance]
        · exact opening
        · exact closing
      exact step.symm.trans fits
    | false => exact fits
  refine ⟨depth, ?_, same⟩
  unfold bareSymbol
  split
  · rfl
  · simp [Symbol.depth?, opening, closing, inner]

/-- Nothing behind a bare destination belongs to it: the text ends there, or a character follows
    that ends destinations. -/
def EndsDestination (behind : List Char) : Prop :=
  behind.head?.all (fun c => endsBare c || c = ')') = true

theorem readBare_behind (ends : EndsDestination behind) :
    readBare 0 (symbols behind) = some ([], symbols behind) := by
  cases behind with
  | nil => rfl
  | cons c rest =>
    have last : c = ')' ∨ endsBare c = true := by simpa [EndsDestination, or_comm] using ends
    have visible : c ≠ '\\' := by
      rintro rfl
      rcases last with parenthesis | ending <;> contradiction
    have closed : Symbol.depth? 0 (.plain c) = none := by
      rcases last with rfl | ending
      · rfl
      · have other : c ≠ '(' := by
          rintro rfl
          contradiction
        simp [Symbol.depth?, ending, other]
    rw [symbols_cons visible, readBare, closed]
    rfl

theorem readBare_bareDestination {text : List Char} {depth : Nat}
    (bare : text.any needsBrackets = false) (fits : FitsDepth balanced depth text)
    (ends : EndsDestination behind)
    (apart : text.getLast? = some '\\' → behind.head?.any isAsciiPunctuation = false) :
    ∃ content, readBare depth (symbols (bareDestination balanced text ++ behind)) =
        some (content, symbols behind) ∧ content.map Symbol.char = text := by
  induction text generalizing depth with
  | nil =>
    have closed : depth = 0 := by
      cases balanced with
      | true => exact of_decide_eq_true fits
      | false => exact fits
    exact ⟨[], by rw [closed]; exact readBare_behind ends, rfl⟩
  | cons c rest ih =>
    obtain ⟨visible, bareRest⟩ := Bool.or_eq_false_iff.mp bare
    obtain ⟨inside, opened, fitsRest⟩ := depth?_bareSymbol visible fits
    have apartRest : rest.getLast? = some '\\' → behind.head?.any isAsciiPunctuation = false := by
      intro last
      exact apart (by rw [List.getLast?_cons, last]; rfl)
    obtain ⟨content, reads, same⟩ := ih bareRest fitsRest apartRest
    refine ⟨bareSymbol balanced c rest :: content, ?_, ?_⟩
    · rw [symbols_bareDestination_cons fun backslash last => apart (by rw [backslash, last]; rfl),
        readBare, opened]
      simp only [reads, Option.map_some]
    · rw [List.map_cons, char_bareSymbol, same]

end Bare

theorem takesBackslash_of_bracketed (c : Char)
    (special : (decide (c = '<') || decide (c = '>') || decide (c = '\\')) = true) :
    takesBackslash c = true := by
  simp only [Bool.or_eq_true, decide_eq_true_eq] at special
  rcases special with (rfl | rfl) | rfl <;> decide

theorem takesBackslash_of_quoted (c : Char)
    (special : (decide (c = '"') || decide (c = '\\')) = true) : takesBackslash c = true := by
  simp only [Bool.or_eq_true, decide_eq_true_eq] at special
  rcases special with rfl | rfl <;> decide

theorem readBracketed_escapeWith {text : List Char}
    (oneLine : ∀ c ∈ text, isLineEnd c = false) (behind : List Char) :
    ∃ content, readBracketed (symbols
        (escapeWith (fun c => c = '<' || c = '>' || c = '\\') text ++ '>' :: behind)) =
      some (content, symbols behind) ∧ content.map Symbol.char = text := by
  let special : Char → Bool := fun c => c = '<' || c = '>' || c = '\\'
  refine ⟨text.map (markWith special), ?_, map_char_markWith text⟩
  have clean : (text.map (markWith special)).all
      (fun symbol => symbol ≠ .plain '<' && !isLineEnd symbol.char) = true := by
    rw [List.all_eq_true]
    intro symbol member
    have other : symbol ≠ .plain '<' := fun same => plain_notMem_markWith rfl text (same ▸ member)
    obtain ⟨c, among, rfl⟩ := List.mem_map.mp member
    simp [other, char_markWith, oneLine c among]
  rw [symbols_escapeWith takesBackslash_of_bracketed rfl, symbols_cons (by decide), readBracketed,
    readUntil_append (plain_notMem_markWith rfl text), Option.filter_some, if_pos clean]

theorem readTitle_titleChars (title behind : List Char) :
    ∃ content, readTitle (symbols (titleChars title ++ behind)) = some (content, symbols behind) ∧
      content.map Symbol.char = title := by
  refine ⟨title.map (markWith fun c => c = '"' || c = '\\'), ?_, map_char_markWith title⟩
  have split : titleChars title ++ behind =
      '"' :: (escapeWith (fun c => c = '"' || c = '\\') title ++ '"' :: behind) := by
    simp [titleChars]
  rw [split, symbols_cons (by decide), symbols_escapeWith takesBackslash_of_quoted rfl,
    symbols_cons (by decide)]
  exact readUntil_append (plain_notMem_markWith rfl title) (symbols behind)

theorem readDestination_of_bracket (text : List Char) :
    readDestination (symbols ('<' :: text)) = readBracketed (symbols text) := by
  rw [symbols_cons (by decide)]
  rfl

theorem readDestination_of_no_bracket {text : List Char} (first : text.head? ≠ some '<') :
    readDestination (symbols text) = readBare 0 (symbols text) := by
  refine if_neg ?_
  cases text with
  | nil => simp [symbols]
  | cons c rest =>
    by_cases backslash : c = '\\'
    · subst backslash
      cases rest with
      | nil => simp [symbols]
      | cons next more =>
        rw [symbols]
        split <;> simp
    · rw [symbols_cons backslash]
      simpa using first

theorem readDestination_bare {destination : List Char} (hasTitle : Bool) (filled : destination ≠ [])
    (bare : destination.any needsBrackets = false) (behind : List Char) :
    readDestination (symbols (destinationChars destination hasTitle ++ behind)) =
      readBare 0 (symbols
        (bareDestination (parenthesesBalance 0 destination) destination ++ behind)) := by
  rw [destinationChars, if_neg filled, if_neg (Bool.eq_false_iff.mp bare)]
  exact readDestination_of_no_bracket (head?_bareDestination filled bare behind)

/-- A destination without brackets that ends in a backslash reads back only if no punctuation
    follows it. -/
theorem readDestination_destinationChars {destination behind : List Char} (hasTitle : Bool)
    (oneLine : ∀ c ∈ destination, isLineEnd c = false) (ends : EndsDestination behind)
    (apart : destination.any needsBrackets = false → destination.getLast? = some '\\' →
      behind.head?.any isAsciiPunctuation = false) :
    ∃ content, readDestination (symbols (destinationChars destination hasTitle ++ behind)) =
      some (content, symbols behind) ∧ content.map Symbol.char = destination := by
  by_cases empty : destination = []
  · subst empty
    cases hasTitle with
    | true =>
      obtain ⟨content, reads, same⟩ := readBracketed_escapeWith oneLine behind
      exact ⟨content, (readDestination_of_bracket ('>' :: behind)).trans reads, same⟩
    | false =>
      have first : behind.head? ≠ some '<' := by
        intro bracket
        rw [EndsDestination, bracket] at ends
        contradiction
      exact ⟨[], (readDestination_of_no_bracket first).trans (readBare_behind ends), rfl⟩
  cases bare : destination.any needsBrackets with
  | true =>
    obtain ⟨content, reads, same⟩ := readBracketed_escapeWith oneLine behind
    refine ⟨content, ?_, same⟩
    rw [destinationChars, if_neg empty, if_pos bare, List.cons_append, readDestination_of_bracket,
      List.append_assoc]
    exact reads
  | false =>
    have fits : FitsDepth (parenthesesBalance 0 destination) 0 destination := by
      unfold FitsDepth
      split
      · assumption
      · rfl
    rw [readDestination_bare hasTitle empty bare]
    exact readBare_bareDestination bare fits ends (apart bare)

def readDestination? (text : List Char) : Option (List Char × List Char) :=
  (readDestination (symbols text)).map valueRead

def readTitle? (text : List Char) : Option (List Char × List Char) :=
  (readTitle (symbols text)).map valueRead

/-- As a text of its own, a destination without line ends reads back, and so does every title. -/
theorem destination_title_read_back (destination title : String) (hasTitle : Bool)
    (oneLine : ∀ c ∈ destination.toList, isLineEnd c = false) :
    readDestination? (destinationText destination hasTitle).toList =
        some (destination.toList, []) ∧
      readTitle? (titleText title).toList = some (title.toList, []) := by
  have ends : EndsDestination [] := rfl
  obtain ⟨content, reads, same⟩ := readDestination_destinationChars hasTitle oneLine ends
    fun _ _ => rfl
  obtain ⟨shown, readsTitle, sameTitle⟩ := readTitle_titleChars title.toList []
  rw [List.append_nil] at reads readsTitle
  rw [readDestination?, destinationText, String.toList_ofList, reads, readTitle?, titleText,
    String.toList_ofList, readsTitle]
  simp [valueRead, same, sameTitle, symbols]

theorem destination_title_read_back_backslashes :
    let destination := "a\\\\(b)\\"
    let title := "\\\"\nc\\"
    (∀ c ∈ destination.toList, isLineEnd c = false) ∧
    destinationText destination true = "a\\\\\\\\(b)\\" ∧
    readDestination? "a\\\\\\\\(b)\\".toList = some (destination.toList, []) ∧
    titleText title = "\"\\\\\\\"\nc\\\\\"" ∧
    readTitle? "\"\\\\\\\"\nc\\\\\"".toList = some (title.toList, []) := by
  intro destination title
  have lines : destination.toList.all (fun c => !isLineEnd c) = true := by decide +kernel
  have oneLine : ∀ c ∈ destination.toList, isLineEnd c = false := fun c member => by
    simpa using List.all_eq_true.mp lines c member
  obtain ⟨reads, readsTitle⟩ := destination_title_read_back destination title true oneLine
  have written : destinationText destination true = "a\\\\\\\\(b)\\" := by decide +kernel
  have quoted : titleText title = "\"\\\\\\\"\nc\\\\\"" := by decide +kernel
  rw [written] at reads
  rw [quoted] at readsTitle
  exact ⟨oneLine, written, reads, quoted, readsTitle⟩

end CanonicalMarkdown.Markdown
