import CanonicalMarkdown.Proofs.Tree.BareUrl
import Mathlib.Data.List.Induction
import Mathlib.Data.List.Infix

namespace CanonicalMarkdown.BareUrl

open Text

section trim

/-- The last character does not belong to the address: it is punctuation, or a parenthesis that
    closes more than is open. -/
def EndsTrimmed (url : List Char) : Prop :=
  ∃ front last, url = front ++ [last] ∧
    (isTrailing last = true ∨ last = ')' ∧ url.count '(' < url.count ')')

/-- What is left of a word when the characters at its end are trimmed one after the other. -/
def Trims (word address : List Char) : Prop :=
  ¬EndsTrimmed address ∧ ∃ tail, word = address ++ tail ∧
    ∀ front rest, tail = front ++ rest → front ≠ [] → EndsTrimmed (address ++ front)

variable {word address front : List Char} {last : Char}

theorem endsTrimmed_concat_iff :
    EndsTrimmed (front ++ [last]) ↔ (isTrailing last ||
      (last = ')' && (front ++ [last]).count '(' < (front ++ [last]).count ')')) = true := by
  simp only [EndsTrimmed, Bool.or_eq_true, Bool.and_eq_true, decide_eq_true_eq]
  constructor
  · rintro ⟨others, c, same, trimmed⟩
    obtain ⟨rfl, end_eq⟩ := List.append_inj' same rfl
    obtain rfl : last = c := by simpa using end_eq
    exact trimmed
  · exact fun trimmed => ⟨front, last, rfl, trimmed⟩

theorem trims_withoutTrailing (word : List Char) : Trims word (withoutTrailing word) := by
  induction word using List.reverseRecOn with
  | nil =>
    refine ⟨by rintro ⟨front, last, empty, -⟩; simp [withoutTrailing, trimBackwards] at empty,
      [], rfl, fun front rest split some => ?_⟩
    exact absurd (List.append_eq_nil_iff.mp split.symm).1 some
  | append_singleton front last ih =>
    rw [withoutTrailing_concat]
    split
    · rename_i trimmed
      obtain ⟨kept, tail, split, trims⟩ := ih
      have whole : front ++ [last] = withoutTrailing front ++ (tail ++ [last]) := by
        rw [← List.append_assoc, ← split]
      refine ⟨kept, tail ++ [last], whole, fun begun rest same some => ?_⟩
      -- either all of the tail is taken, or a part of it that was trimmed off before
      rcases List.eq_nil_or_concat' rest with rfl | ⟨others, c, rfl⟩
      · rw [List.append_nil] at same
        rw [← same, ← whole]
        exact endsTrimmed_concat_iff.mpr trimmed
      · rw [← List.append_assoc] at same
        exact trims begun others (List.append_inj' same rfl).1 some
    · rename_i kept
      exact ⟨fun trimmed => kept (endsTrimmed_concat_iff.mp trimmed), [], (List.append_nil _).symm,
        fun begun rest same some => absurd (List.append_eq_nil_iff.mp same.symm).1 some⟩

theorem Trims.exists_tail (trims : Trims word address) : ∃ tail, word = address ++ tail := by
  obtain ⟨-, tail, split, -⟩ := trims
  exact ⟨tail, split⟩

theorem Trims.length_le {other : List Char} (first : Trims word address)
    (second : Trims word other) : address.length ≤ other.length := by
  obtain ⟨kept, tail, split, -⟩ := first
  obtain ⟨-, rest, same, trims⟩ := second
  rw [split] at same
  rcases List.append_eq_append_iff.mp same with ⟨more, longer, -⟩ | ⟨more, shorter, behind⟩
  · rw [longer, List.length_append]
    omega
  · by_cases none : more = []
    · rw [shorter, none, List.append_nil]
    -- the longer one ends in what was trimmed on the way to the shorter
    · exact absurd (shorter ▸ trims more tail behind none) kept

theorem trims_iff : Trims word address ↔ withoutTrailing word = address := by
  refine ⟨fun trims => ?_, fun same => same ▸ trims_withoutTrailing word⟩
  have whole := trims_withoutTrailing word
  have length := Nat.le_antisymm (whole.length_le trims) (trims.length_le whole)
  obtain ⟨-, tail, split, -⟩ := trims
  obtain ⟨-, rest, same, -⟩ := whole
  exact (List.append_inj (same.symm.trans split) length).1

end trim

section words

def schemes : List (List Char) := ["http://".toList, "https://".toList]

def HasAddress (text : List Char) : Prop :=
  ∃ scheme ∈ schemes, ∃ rest, rest ≠ [] ∧ text = scheme ++ rest

/-- A part of a text that is a scheme and more, up to the next delimiter or the end. -/
structure IsWord (text before word after : List Char) : Prop where
  split : text = before ++ (word ++ after)
  hasAddress : HasAddress word
  unbroken : ∀ c ∈ word, isDelimiter c = false
  ends : after.head?.all isDelimiter = true

/-- No word that starts earlier in the text reaches over this place. -/
def IsOutermost (text before : List Char) : Prop :=
  ∀ earlier word after, IsWord text earlier word after → earlier.length < before.length →
    (earlier ++ word).length ≤ before.length

variable {text front before rest word : List Char} {c : Char}

theorem hasAddressAfter_iff {scheme : List Char} : hasAddressAfter scheme text = true ↔
    ∃ c rest, text = scheme ++ c :: rest ∧ isDelimiter c = false := by
  rw [hasAddressAfter, Bool.and_eq_true, List.isPrefixOf_iff_prefix]
  constructor
  · rintro ⟨⟨more, rfl⟩, follows⟩
    rw [List.drop_left] at follows
    cases more with
    | nil => simp at follows
    | cons c rest => exact ⟨c, rest, rfl, by simpa using follows⟩
  · rintro ⟨c, rest, rfl, inner⟩
    exact ⟨List.prefix_append .., by simp [inner]⟩

theorem isDelimiter_of_mem_scheme {scheme : List Char} (among : scheme ∈ schemes) (c : Char)
    (member : c ∈ scheme) : isDelimiter c = false := by
  have plain : schemes.all (·.all fun c => !isDelimiter c) = true := by decide
  simpa using List.all_eq_true.mp (List.all_eq_true.mp plain scheme among) c member

theorem startsHere_iff : startsHere text = true ↔
    ∃ scheme ∈ schemes, ∃ c rest, text = scheme ++ c :: rest ∧ isDelimiter c = false := by
  rw [startsHere, Bool.or_eq_true, hasAddressAfter_iff, hasAddressAfter_iff]
  simp only [schemes, List.mem_cons, List.not_mem_nil, or_false, exists_eq_or_imp, exists_eq_left]

theorem not_startsHere_of_delimiter (delimiter : isDelimiter c = true) :
    startsHere (c :: rest) = false := by
  refine Bool.eq_false_iff.mpr fun starts => ?_
  obtain ⟨scheme, among, first, others, split, -⟩ := startsHere_iff.mp starts
  have filled : scheme ≠ [] := by
    rintro rfl
    exact absurd among (by decide)
  obtain ⟨begun, more, rfl⟩ := List.exists_cons_of_ne_nil filled
  obtain ⟨rfl, -⟩ := List.cons.inj split
  rw [isDelimiter_of_mem_scheme among c (List.mem_cons_self ..)] at delimiter
  contradiction

theorem isWord_iff : (∃ after, IsWord text before word after) ↔
    ∃ rest, text = before ++ rest ∧ startsHere rest = true ∧
      word = rest.takeWhile fun c => !isDelimiter c := by
  constructor
  · rintro ⟨after, split, ⟨scheme, among, rest, some, rfl⟩, unbroken, ends⟩
    obtain ⟨c, more, rfl⟩ := List.exists_cons_of_ne_nil some
    refine ⟨_, split, startsHere_iff.mpr ⟨scheme, among, c, more ++ after, by simp,
      unbroken c (by simp)⟩, ?_⟩
    rw [List.takeWhile_append_of_pos (by simpa using unbroken)]
    cases after with
    | nil => simp
    | cons delimiter others =>
      have delimits : isDelimiter delimiter = true := by simpa using ends
      simp [delimits]
  · rintro ⟨rest, split, starts, rfl⟩
    have whole : rest.takeWhile (fun c => !isDelimiter c) ++
        rest.dropWhile (fun c => !isDelimiter c) = rest := List.takeWhile_append_dropWhile
    refine ⟨rest.dropWhile fun c => !isDelimiter c, by rw [whole, split], ?_, ?_, ?_⟩
    · obtain ⟨scheme, among, c, more, rfl, inner⟩ := startsHere_iff.mp starts
      refine ⟨scheme, among, c :: more.takeWhile fun c => !isDelimiter c, by simp, ?_⟩
      rw [List.takeWhile_append_of_pos (by simpa using isDelimiter_of_mem_scheme among),
        List.takeWhile_cons_of_pos (by simp [inner])]
    · intro c member
      simpa using List.all_eq_true.mp List.all_takeWhile c member
    · cases left : rest.dropWhile fun c => !isDelimiter c with
      | nil => rfl
      | cons c others =>
        have stops := List.head?_dropWhile_not (fun c => !isDelimiter c) rest
        rw [left] at stops
        simpa using stops

end words

section search

variable {front before rest text : List Char} {c : Char} {inside : Bool}

def Reaches (front text : List Char) : Prop :=
  ∃ earlier part, front = earlier ++ part ∧ part ≠ [] ∧ (∀ c ∈ part, isDelimiter c = false) ∧
    startsHere (part ++ text) = true

theorem reaches_concat_iff : Reaches (front ++ [c]) rest ↔
    isDelimiter c = false ∧ (Reaches front (c :: rest) ∨ startsHere (c :: rest) = true) := by
  constructor
  · rintro ⟨earlier, part, split, some, unbroken, starts⟩
    rcases List.eq_nil_or_concat' part with rfl | ⟨others, last, rfl⟩
    · contradiction
    rw [← List.append_assoc] at split
    obtain ⟨rfl, same⟩ := List.append_inj' split rfl
    obtain rfl : c = last := by simpa using same
    rw [List.append_assoc, List.singleton_append] at starts
    refine ⟨unbroken c (by simp), ?_⟩
    by_cases none : others = []
    · rw [none] at starts
      exact .inr starts
    · exact .inl ⟨earlier, others, rfl, none, fun c member => unbroken c (by simp [member]), starts⟩
  · rintro ⟨inner, ⟨earlier, part, rfl, some, unbroken, starts⟩ | starts⟩
    · refine ⟨earlier, part ++ [c], List.append_assoc .., by simp, ?_, by simpa using starts⟩
      simpa [or_imp, forall_and, inner] using unbroken
    · exact ⟨front, [c], rfl, by simp, by simpa using inner, starts⟩

theorem isOutermost_iff (starts : startsHere rest = true) :
    IsOutermost (before ++ rest) before ↔ ¬Reaches before rest := by
  constructor
  · rintro outermost ⟨earlier, part, rfl, some, unbroken, begins⟩
    obtain ⟨after, isWord⟩ := isWord_iff.mpr
      ⟨part ++ rest, List.append_assoc earlier part rest, begins, rfl⟩
    have positive := List.length_pos_iff.mpr some
    have bounded := outermost earlier _ after isWord (by simpa using positive)
    -- the word goes on behind the part, since the text does not begin with a delimiter
    rw [List.takeWhile_append_of_pos (by simpa using unbroken)] at bounded
    cases rest with
    | nil => simp [startsHere, hasAddressAfter] at starts
    | cons c others =>
      cases delimiter : isDelimiter c with
      | true =>
        rw [not_startsHere_of_delimiter delimiter] at starts
        contradiction
      | false =>
        simp only [List.takeWhile_cons_of_pos, delimiter, Bool.not_false, List.length_append,
          List.length_cons] at bounded
        omega
  · intro unreached earlier word after isWord shorter
    by_contra longer
    obtain ⟨behind, split, begins, -⟩ := isWord_iff.mp ⟨after, isWord⟩
    rcases List.append_eq_append_iff.mp split with ⟨more, later, -⟩ | ⟨part, rfl, rfl⟩
    · rw [later, List.length_append] at shorter
      omega
    have whole : part ++ rest = word ++ after := by
      have same := isWord.split
      rw [List.append_assoc] at same
      exact List.append_cancel_left same
    -- the word goes beyond the place, so what it has before it is free of delimiters
    have within : part <+: word := by
      refine List.prefix_of_prefix_length_le ⟨rest, whole⟩ ⟨after, rfl⟩ ?_
      simp only [List.length_append] at longer
      omega
    refine unreached ⟨earlier, part, rfl, ?_, fun c member => ?_, begins⟩
    · rintro rfl
      simp at shorter
    · exact isWord.unbroken c (within.subset member)

def IsOutermostWord (offset : Nat) (front text : List Char) (candidate : Candidate) : Prop :=
  ∃ before rest, text = before ++ rest ∧ startsHere rest = true ∧ ¬Reaches (front ++ before) rest ∧
    candidate = ⟨(front ++ before).getLast?, offset + byteLength (front ++ before),
      rest.takeWhile fun c => !isDelimiter c⟩

variable {offset : Nat} {candidate : Candidate}

theorem isOutermostWord_cons_iff : IsOutermostWord offset front (c :: text) candidate ↔
    (startsHere (c :: text) = true ∧ ¬Reaches front (c :: text) ∧
      candidate = ⟨front.getLast?, offset + byteLength front,
        (c :: text).takeWhile fun c => !isDelimiter c⟩) ∨
    IsOutermostWord offset (front ++ [c]) text candidate := by
  constructor
  · rintro ⟨before, rest, split, starts, outermost, same⟩
    cases before with
    | nil =>
      rw [List.nil_append] at split
      subst split
      rw [List.append_nil] at outermost same
      exact .inl ⟨starts, outermost, same⟩
    | cons first others =>
      obtain ⟨rfl, tail⟩ := List.cons.inj split
      rw [List.append_cons] at outermost same
      exact .inr ⟨others, rest, tail, starts, outermost, same⟩
  · rintro (⟨starts, outermost, same⟩ | ⟨before, rest, rfl, starts, outermost, same⟩)
    · exact ⟨[], c :: text, rfl, starts, by rwa [List.append_nil], by rwa [List.append_nil]⟩
    · rw [← List.append_cons] at outermost same
      exact ⟨c :: before, rest, rfl, starts, outermost, same⟩

theorem mem_candidates_iff (offset : Nat) (reaches : inside = true ↔ Reaches front text) :
    candidate ∈ candidates (offset + byteLength front) front.getLast? inside text ↔
      IsOutermostWord offset front text candidate := by
  induction text generalizing front inside with
  | nil => simp [candidates, IsOutermostWord, startsHere, hasAddressAfter]
  | cons c text ih =>
    have next {within : Bool} (reaches : within = true ↔ Reaches (front ++ [c]) text) :
        candidate ∈ candidates (offset + byteLength front + c.utf8Size) (some c) within text ↔
          IsOutermostWord offset (front ++ [c]) text candidate := by
      rw [← ih reaches, List.getLast?_concat, byteLength_append, byteLength_cons, byteLength_nil,
        Nat.add_zero, Nat.add_assoc]
    rw [isOutermostWord_cons_iff, candidates]
    split
    · rename_i delimiter
      rw [next (by simp [reaches_concat_iff, delimiter])]
      simp [not_startsHere_of_delimiter delimiter]
    · rename_i inner
      -- the rest is reached if this place is, and also if a word starts here
      split
      · rename_i reached
        rw [next (by simp [reaches_concat_iff, inner, reaches.mp reached])]
        simp [reaches.mp reached]
      · rename_i unreached
        rw [reaches] at unreached
        split
        · rename_i starts
          rw [List.mem_cons, next (by simp [reaches_concat_iff, inner, starts])]
          simp [starts, unreached]
        · rename_i starts
          rw [next (by simp [reaches_concat_iff, inner, starts, unreached])]
          simp [starts]

end search

section result

variable {word address : List Char}

theorem byteLength_le_of_prefix_scheme {scheme : List Char} (among : scheme ∈ schemes)
    (begins : address <+: scheme) : byteLength address ≤ schemeLength address := by
  have short : schemes.all (·.inits.all fun part => byteLength part ≤ schemeLength part) = true := by
    decide
  simpa using List.all_eq_true.mp (List.all_eq_true.mp short scheme among) address
    ((List.mem_inits _ _).mpr begins)

theorem schemeLength_append {scheme : List Char} (among : scheme ∈ schemes) (rest : List Char) :
    schemeLength (scheme ++ rest) = byteLength scheme := by
  simp only [schemes, List.mem_cons, List.not_mem_nil, or_false] at among
  rcases among with rfl | rfl <;> rfl

theorem schemeLength_lt_iff (hasAddress : HasAddress word) (begins : address <+: word) :
    schemeLength address < byteLength address ↔ HasAddress address := by
  constructor
  · intro long
    obtain ⟨scheme, among, rest, -, rfl⟩ := hasAddress
    have short : ¬address <+: scheme := fun part =>
      absurd (byteLength_le_of_prefix_scheme among part) (Nat.not_le.mpr long)
    rcases List.prefix_or_prefix_of_prefix begins (List.prefix_append scheme rest) with
      part | ⟨more, rfl⟩
    · exact absurd part short
    · refine ⟨scheme, among, more, ?_, rfl⟩
      rintro rfl
      exact short (by simp)
  · rintro ⟨scheme, among, rest, some, rfl⟩
    have positive := byteLength_pos some
    rw [schemeLength_append among, byteLength_append]
    omega

theorem url?_eq_some_iff {candidate : Candidate} {span : Span}
    (hasAddress : HasAddress candidate.text) : url? candidate = some span ↔
      candidate.before?.all mayPrecede = true ∧ ∃ address, Trims candidate.text address ∧
        HasAddress address ∧ span = ⟨candidate.offset, candidate.offset + byteLength address⟩ := by
  have begins := withoutTrailing_prefix candidate.text
  have long := schemeLength_lt_iff hasAddress begins
  simp only [trims_iff, exists_eq_left', url?, Option.ite_none_right_eq_some, Bool.and_eq_true,
    decide_eq_true_eq, long, Option.some.injEq, and_assoc, eq_comm (a := span)]

theorem PartsOf.from_offset {offset : Nat} {text : List Char} {spans : List Span}
    (parts : PartsOf offset text spans) : ∀ span ∈ spans, offset ≤ span.start := by
  induction parts with
  | nil => simp
  | cons _ _ ih =>
    rintro span (_ | ⟨_, member⟩)
    · exact Nat.le_add_right ..
    · have behind := ih span member
      omega

theorem PartsOf.pairwise {offset : Nat} {text : List Char} {spans : List Span}
    (parts : PartsOf offset text spans) :
    spans.Pairwise fun first later => first.stop ≤ later.start := by
  induction parts with
  | nil => exact .nil
  | cons _ rest ih => exact .cons rest.from_offset ih

/-- A bare address in a text: what is left of a word that no earlier word reaches over, if it is more
    than a scheme, and does not stand inside a word of another kind, a path or a tag. -/
structure IsBareUrl (text before address tail after : List Char) : Prop where
  isWord : IsWord text before (address ++ tail) after
  outermost : IsOutermost text before
  precedes : before.getLast?.all mayPrecede = true
  trims : Trims (address ++ tail) address
  hasAddress : HasAddress address

theorem mem_find_iff {source : Source} {range url : Span} {text : List Char}
    (sliced : source.slice? range = some text) :
    url ∈ find source range ↔
      ∃ before address tail after, IsBareUrl text before address tail after ∧
        url =
          ⟨range.start + byteLength before, range.start + byteLength before + byteLength address⟩ := by
  have outermostWords {candidate : Candidate} :
      candidate ∈ candidates range.start none false text ↔
        IsOutermostWord range.start [] text candidate :=
    @mem_candidates_iff [] text false candidate range.start (by simp [Reaches])
  simp only [find, sliced, List.mem_filterMap, outermostWords]
  constructor
  · rintro ⟨_, ⟨before, rest, rfl, starts, unreached, rfl⟩, found⟩
    rw [List.nil_append] at unreached found
    obtain ⟨after, isWord⟩ : ∃ after, IsWord (before ++ rest) before _ after :=
      isWord_iff.mpr ⟨rest, rfl, starts, rfl⟩
    obtain ⟨precedes, address, trims, hasAddress, rfl⟩ :=
      (url?_eq_some_iff isWord.hasAddress).mp found
    dsimp only at precedes trims
    obtain ⟨tail, whole⟩ := trims.exists_tail
    rw [whole] at isWord trims
    exact ⟨before, address, tail, after,
      ⟨isWord, (isOutermost_iff starts).mpr unreached, precedes, trims, hasAddress⟩, rfl⟩
  · rintro ⟨before, address, tail, after, ⟨isWord, outermost, precedes, trims, hasAddress⟩, rfl⟩
    obtain ⟨rest, rfl, starts, word⟩ := isWord_iff.mp ⟨after, isWord⟩
    refine ⟨⟨before.getLast?, range.start + byteLength before, address ++ tail⟩,
      ⟨before, rest, rfl, starts, (isOutermost_iff starts).mp outermost, by rw [word]; rfl⟩, ?_⟩
    exact (url?_eq_some_iff isWord.hasAddress).mpr ⟨precedes, address, trims, hasAddress, rfl⟩

/-- In a range on character boundaries, addresses are found in order and apart, each on boundaries
    inside the range. Each is a bare address, and a word that no earlier word reaches over and that
    may follow what stands before it is found if it is more than a scheme once it is trimmed. -/
theorem find_finds_bareUrls {source : Source} {range : Span} {text : List Char}
    (sliced : source.slice? range = some text) :
    (find source range).Pairwise (fun first later => first.stop ≤ later.start) ∧
    (∀ url ∈ find source range, range.start ≤ url.start ∧ url.stop ≤ range.stop ∧
      ∃ before address tail after, IsBareUrl text before address tail after ∧
        url.start = range.start + byteLength before ∧ source.slice? url = some address) ∧
    ∀ before word after, IsWord text before word after → IsOutermost text before →
      before.getLast?.all mayPrecede = true →
      ∃ address, Trims word address ∧ (HasAddress address →
        ⟨range.start + byteLength before, range.start + byteLength before + byteLength address⟩ ∈
          find source range) := by
  refine ⟨(partsOf_find sliced).pairwise, fun url found => ?_, ?_⟩
  · obtain ⟨before, address, tail, after, bareUrl, rfl⟩ := (mem_find_iff sliced).mp found
    have split := bareUrl.isWord.split
    rw [List.append_assoc] at split
    rw [split] at sliced
    have length := Source.length_slice? sliced
    rw [byteLength_append, byteLength_append] at length
    have part := (Source.slice?_split (Source.slice?_split sliced).2).1
    dsimp only
    exact ⟨by omega, by omega, before, address, tail, after, bareUrl, rfl, part⟩
  · intro before word after isWord outermost precedes
    obtain ⟨tail, whole⟩ := (trims_withoutTrailing word).exists_tail
    refine ⟨_, trims_withoutTrailing word, fun hasAddress => (mem_find_iff sliced).mpr ?_⟩
    have trims := trims_withoutTrailing word
    generalize withoutTrailing word = address at whole hasAddress trims
    subst whole
    exact ⟨before, address, tail, after, ⟨isWord, outermost, precedes, trims, hasAddress⟩, rfl⟩

def addressText : Source := .ofString "é(https://a/(b)?), xhttp://c;http://d <http://. http://e"

theorem find_finds_bareUrls_addressText :
    let text := "(https://a/(b)?), xhttp://c;http://d <http://. http://e".toList
    addressText.slice? ⟨2, 57⟩ = some text ∧
    find addressText ⟨2, 57⟩ = [⟨3, 16⟩, ⟨49, 57⟩] ∧
    ∃ before tail after, IsBareUrl text before "https://a/(b)".toList tail after := by
  intro text
  have sliced : addressText.slice? ⟨2, 57⟩ = some text := by decide +kernel
  have found : find addressText ⟨2, 57⟩ = [⟨3, 16⟩, ⟨49, 57⟩] := by decide +kernel
  have first : addressText.slice? ⟨3, 16⟩ = some "https://a/(b)".toList := by decide +kernel
  obtain ⟨-, bareUrls, -⟩ := find_finds_bareUrls sliced
  obtain ⟨-, -, before, address, tail, after, bareUrl, -, part⟩ :=
    bareUrls ⟨3, 16⟩ (by rw [found]; exact List.mem_cons_self ..)
  obtain rfl := Option.some.inj (first.symm.trans part)
  exact ⟨sliced, found, before, tail, after, bareUrl⟩

end result

end CanonicalMarkdown.BareUrl
