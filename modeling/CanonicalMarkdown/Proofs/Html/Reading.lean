import CanonicalMarkdown.Html.Rules

namespace CanonicalMarkdown.Html

inductive Token
  | text (chars : List Char)
  | tag (chars : List Char)

namespace Token

def outside : Token → List Char
  | text chars => chars
  | tag _ => []

def tag? : Token → Option (List Char)
  | text _ => none
  | tag chars => some chars

end Token

/-- What stands up to the next angle bracket, and the tokens behind it. Only a tag may end with a
    bracket, and it may not hold one. -/
def cut (inTag : Bool) : List Char → Option (List Char × List Token)
  | [] => if inTag then none else some ([], [])
  | c :: rest =>
    if c = '<' then
      if inTag then none
      else (cut true rest).map fun (piece, behind) => ([], .tag piece :: behind)
    else if c = '>' then
      if inTag then (cut false rest).map fun (piece, behind) => ([], .text piece :: behind)
      else none
    else (cut inTag rest).map fun (piece, behind) => (c :: piece, behind)

def unescape : List Char → List Char
  | '&' :: 'a' :: 'm' :: 'p' :: ';' :: rest => '&' :: unescape rest
  | '&' :: 'l' :: 't' :: ';' :: rest => '<' :: unescape rest
  | '&' :: 'g' :: 't' :: ';' :: rest => '>' :: unescape rest
  | '&' :: 'q' :: 'u' :: 'o' :: 't' :: ';' :: rest => '"' :: unescape rest
  | c :: rest => c :: unescape rest
  | [] => []

def isNameChar (c : Char) : Bool :=
  c ∉ [' ', '\t', '\n', '\x0c', '\r', '"', '\'', '<', '>', '/', '=']

def isName (name : String) : Bool := name.toList.all isNameChar

inductive AttributeState
  | between
  | name (name : List Char)
  | equals (name : List Char)
  | value (name value : List Char)

/-- Attributes with a blank in front of each. A slash may end them. -/
def readAttributes : AttributeState → List Char → Option (List Attribute)
  | .between, [] => some []
  | .name name, [] => some [⟨String.ofList name, none⟩]
  | .equals _, [] => none
  | .value _ _, [] => none
  | .between, c :: rest => if c = ' ' then readAttributes (.name []) rest else none
  | .name name, c :: rest =>
    if c = ' ' then (readAttributes (.name []) rest).map (⟨String.ofList name, none⟩ :: ·)
    else if c = '=' then readAttributes (.equals name) rest
    else if c = '/' then if name.isEmpty && rest.isEmpty then some [] else none
    else if isNameChar c then readAttributes (.name (name ++ [c])) rest
    else none
  | .equals name, c :: rest => if c = '"' then readAttributes (.value name []) rest else none
  | .value name value, c :: rest =>
    if c = '"' then
      (readAttributes .between rest).map
        (⟨String.ofList name, some (String.ofList (unescape value))⟩ :: ·)
    else readAttributes (.value name (value ++ [c])) rest

inductive Tag
  | opening (name : String) (attributes : List Attribute)
  | closing (name : String)
deriving DecidableEq, Repr

def isVoid (name : String) : Bool := name = "hr" || name = "br" || name = "img"

namespace Tag

def inside : Tag → String
  | opening name attributes =>
    name ++ String.join (attributes.map attributeText) ++ if isVoid name then " /" else ""
  | closing name => "/" ++ name

def print (tag : Tag) : String := "<" ++ tag.inside ++ ">"

/-- The names in the tag can be told from what stands around them. -/
def isReadable : Tag → Bool
  | opening name attributes => isName name && attributes.all (isName ·.name)
  | closing name => isName name

def read? (inside : List Char) : Option Tag :=
  if inside.head? = some '/' then
    if inside.tail.all isNameChar then some (.closing (String.ofList inside.tail)) else none
  else
    (readAttributes .between (inside.dropWhile isNameChar)).map
      (.opening (String.ofList (inside.takeWhile isNameChar)))

end Tag

structure Reading where
  tags : List Tag
  text : List Char

/-- The tags of a page, and all its text. -/
def read? (page : String) : Option Reading := do
  let (piece, behind) ← cut false page.toList
  let tags ← (behind.filterMap Token.tag?).mapM Tag.read?
  some ⟨tags, unescape (piece ++ behind.flatMap Token.outside)⟩

section escapes

theorem unescape_escapeChar (c : Char) (rest : List Char) :
    unescape (escapeChar c ++ rest) = c :: unescape rest := by
  by_cases amp : c = '&'
  · subst amp
    simp [escapeChar, unescape]
  · fun_cases escapeChar c <;> simp_all [unescape]

theorem unescape_flatMap (text : List Char) : unescape (text.flatMap escapeChar) = text := by
  induction text with
  | nil => rfl
  | cons c rest ih => rw [List.flatMap_cons, unescape_escapeChar, ih]

theorem not_mem_escapeChar {special : Char} (among : special = '<' ∨ special = '>' ∨ special = '"')
    (c : Char) : special ∉ escapeChar c := by
  fun_cases escapeChar c <;> grind

theorem not_mem_escape {special : Char} (among : special = '<' ∨ special = '>' ∨ special = '"')
    (text : String) : special ∉ (escape text).toList := by
  rw [toList_escape, List.mem_flatMap]
  rintro ⟨c, -, member⟩
  exact not_mem_escapeChar among c member

end escapes

section cut

/-- Characters without an angle bracket. -/
def IsPlain (chars : List Char) : Prop := '<' ∉ chars ∧ '>' ∉ chars

theorem IsPlain.append {left right : List Char} (first : IsPlain left) (second : IsPlain right) :
    IsPlain (left ++ right) := by
  simp only [IsPlain, List.mem_append, not_or] at first second ⊢
  exact ⟨⟨first.1, second.1⟩, first.2, second.2⟩

theorem isPlain_escape (text : String) : IsPlain (escape text).toList :=
  ⟨not_mem_escape (.inl rfl) text, not_mem_escape (.inr (.inl rfl)) text⟩

theorem cut_plain {chars : List Char} (plain : IsPlain chars) (inTag : Bool) (rest : List Char) :
    cut inTag (chars ++ rest) =
      (cut inTag rest).map fun (piece, behind) => (chars ++ piece, behind) := by
  induction chars with
  | nil => simp
  | cons c more ih =>
    obtain ⟨opens, closes⟩ := plain
    rw [List.mem_cons, not_or] at opens closes
    rw [List.cons_append, cut, if_neg (Ne.symm opens.1), if_neg (Ne.symm closes.1), ih ⟨opens.2, closes.2⟩,
      Option.map_map]
    rfl

theorem cut_tag {inside : List Char} (plain : IsPlain inside) (rest : List Char) :
    cut false ('<' :: (inside ++ '>' :: rest)) =
      (cut false rest).map fun (piece, behind) => ([], .tag inside :: .text piece :: behind) := by
  have ends : cut true ('>' :: rest) =
      (cut false rest).map fun (piece, behind) => ([], .text piece :: behind) := rfl
  rw [cut, if_pos rfl, cut_plain plain, ends, Option.map_map, if_neg Bool.false_ne_true,
    Option.map_map]
  simp [Function.comp_def]

end cut

section attributes

variable {name : String} {value rest : List Char}

theorem isNameChar_ne {c special : Char} (named : isNameChar c = true)
    (other : isNameChar special = false) : c ≠ special := by
  rintro rfl
  rw [named] at other
  contradiction

theorem readAttributes_name {chars : List Char} (named : chars.all isNameChar = true)
    (name rest : List Char) :
    readAttributes (.name name) (chars ++ rest) = readAttributes (.name (name ++ chars)) rest := by
  induction chars generalizing name with
  | nil => simp
  | cons c more ih =>
    obtain ⟨first, others⟩ := Bool.and_eq_true_iff.mp named
    rw [List.cons_append, readAttributes, if_neg (isNameChar_ne first (by decide)),
      if_neg (isNameChar_ne first (by decide)), if_neg (isNameChar_ne first (by decide)),
      if_pos first, ih others, List.append_assoc]
    rfl

theorem readAttributes_value {chars : List Char} (unquoted : '"' ∉ chars)
    (name value rest : List Char) :
    readAttributes (.value name value) (chars ++ rest) =
      readAttributes (.value name (value ++ chars)) rest := by
  induction chars generalizing value with
  | nil => simp
  | cons c more ih =>
    rw [List.mem_cons, not_or] at unquoted
    rw [List.cons_append, readAttributes, if_neg (Ne.symm unquoted.1), ih unquoted.2,
      List.append_assoc]
    rfl

theorem readAttributes_attributeText {entry : Attribute} (named : isName entry.name = true)
    (parted : rest.head?.all (· = ' ') = true) :
    readAttributes .between ((attributeText entry).toList ++ rest) =
      (readAttributes .between rest).map (entry :: ·) := by
  obtain ⟨name, value⟩ := entry
  cases value with
  | none =>
    have text : (attributeText ⟨name, none⟩).toList = ' ' :: name.toList := by
      simp [attributeText]
    rw [text, List.cons_append, readAttributes, if_pos rfl, readAttributes_name named,
      List.nil_append]
    cases rest with
    | nil => simp [readAttributes]
    | cons c more =>
      obtain rfl : c = ' ' := by simpa using parted
      simp [readAttributes]
  | some value =>
    have text : (attributeText ⟨name, some value⟩).toList =
        ' ' :: (name.toList ++ '=' :: '"' :: ((escape value).toList ++ ['"'])) := by
      simp [attributeText, quotedAttribute]
    rw [text, List.cons_append, List.append_assoc, readAttributes, if_pos rfl,
      readAttributes_name named, List.nil_append, List.cons_append, readAttributes,
      if_neg (by decide), if_pos rfl, List.cons_append, readAttributes, if_pos rfl,
      List.append_assoc, readAttributes_value (not_mem_escape (.inr (.inr rfl)) value),
      List.nil_append, List.cons_append, readAttributes, if_pos rfl, toList_escape,
      unescape_flatMap]
    simp

theorem readAttributes_attributeTexts {attributes : List Attribute} {ending : List Char}
    (named : attributes.all (isName ·.name) = true)
    (ends : readAttributes .between ending = some [])
    (parted : ending.head?.all (· = ' ') = true) :
    readAttributes .between ((String.join (attributes.map attributeText)).toList ++ ending) =
        some attributes ∧
      ((String.join (attributes.map attributeText)).toList ++ ending).head?.all (· = ' ') = true := by
  induction attributes with
  | nil => simpa using ⟨ends, parted⟩
  | cons entry more ih =>
    obtain ⟨first, others⟩ := Bool.and_eq_true_iff.mp named
    obtain ⟨read, begins⟩ := ih others
    rw [List.map_cons, String.join_cons, String.toList_append, List.append_assoc]
    refine ⟨by rw [readAttributes_attributeText first begins, read]; rfl, ?_⟩
    obtain ⟨name, _ | value⟩ := entry <;> simp [attributeText, quotedAttribute]

end attributes

namespace Tag

theorem isPlain_of_isName {name : String} (named : isName name = true) : IsPlain name.toList := by
  constructor <;>
    exact fun member => Bool.noConfusion (List.all_eq_true.mp named _ member)

theorem isPlain_attributeText {entry : Attribute} (named : isName entry.name = true) :
    IsPlain (attributeText entry).toList := by
  have plain := isPlain_of_isName named
  have blank : IsPlain " ".toList := by simp [IsPlain]
  unfold attributeText
  split
  · have equals : IsPlain "=\"".toList := by simp [IsPlain]
    have quote : IsPlain "\"".toList := by simp [IsPlain]
    simp only [quotedAttribute, String.toList_append]
    exact (((blank.append plain).append equals).append (isPlain_escape _)).append quote
  · rw [String.toList_append]
    exact blank.append plain

theorem isPlain_inside {tag : Tag} (readable : tag.isReadable = true) :
    IsPlain tag.inside.toList := by
  cases tag with
  | closing name =>
    rw [inside, String.toList_append]
    exact IsPlain.append (by simp [IsPlain]) (isPlain_of_isName readable)
  | opening name attributes =>
    obtain ⟨named, others⟩ := Bool.and_eq_true_iff.mp readable
    have between : IsPlain (String.join (attributes.map attributeText)).toList := by
      clear readable
      induction attributes with
      | nil => simp [IsPlain]
      | cons entry more ih =>
        obtain ⟨first, rest⟩ := Bool.and_eq_true_iff.mp others
        rw [List.map_cons, String.join_cons, String.toList_append]
        exact (isPlain_attributeText first).append (ih rest)
    rw [inside, String.toList_append, String.toList_append]
    refine ((isPlain_of_isName named).append between).append ?_
    split <;> simp [IsPlain]

theorem read?_inside {tag : Tag} (readable : tag.isReadable = true) :
    read? tag.inside.toList = some tag := by
  cases tag with
  | closing name =>
    have named : name.toList.all isNameChar = true := readable
    have text : (Tag.closing name).inside.toList = '/' :: name.toList := by simp [inside]
    rw [read?, text, List.head?_cons, if_pos rfl, List.tail_cons, if_pos named,
      String.ofList_toList]
  | opening name attributes =>
    obtain ⟨named, others⟩ := Bool.and_eq_true_iff.mp readable
    have text : (Tag.opening name attributes).inside.toList = name.toList ++
        ((String.join (attributes.map attributeText)).toList
          ++ if isVoid name then [' ', '/'] else []) := by
      rw [inside]
      cases isVoid name <;> simp
    have ending : ∃ ending, (if isVoid name then [' ', '/'] else []) = ending ∧
        readAttributes .between ending = some [] ∧ ending.head?.all (· = ' ') = true := by
      split
      · exact ⟨_, rfl, by simp [readAttributes], rfl⟩
      · exact ⟨_, rfl, by simp [readAttributes], rfl⟩
    obtain ⟨ending, same, ends, parted⟩ := ending
    obtain ⟨read, begins⟩ := readAttributes_attributeTexts others ends parted
    rw [same] at text
    rw [read?, text]
    generalize (String.join (attributes.map attributeText)).toList ++ ending = rest at read begins ⊢
    -- the name ends where the attributes or the end of the tag begin
    have stops : rest.takeWhile isNameChar = [] ∧ rest.dropWhile isNameChar = rest := by
      cases rest with
      | nil => exact ⟨rfl, rfl⟩
      | cons c more =>
        obtain rfl : c = ' ' := by simpa using begins
        exact ⟨rfl, rfl⟩
    have notClosing : (name.toList ++ rest).head? ≠ some '/' := by
      cases chars : name.toList with
      | nil =>
        intro slash
        rw [List.nil_append] at slash
        rw [slash] at begins
        contradiction
      | cons c more =>
        rw [isName, chars] at named
        obtain ⟨first, _⟩ := Bool.and_eq_true_iff.mp named
        simpa using isNameChar_ne first (by decide)
    have whole := List.all_eq_true.mp named
    rw [if_neg notClosing, List.takeWhile_append_of_pos whole, List.dropWhile_append_of_pos whole,
      stops.1, stops.2, List.append_nil, String.ofList_toList, read]
    rfl

end Tag

end CanonicalMarkdown.Html
