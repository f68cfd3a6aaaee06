import Mathlib.Data.List.TakeWhile
import CanonicalMarkdown.Markdown.Rules
import CanonicalMarkdown.Proofs.ConversionSafety
import CanonicalMarkdown.Proofs.Markdown.TidyRules
import CanonicalMarkdown.Tree.Builder

namespace CanonicalMarkdown.Markdown

section Reader

inductive Mark
  | id (value : String)
  | className (value : String)
  | other (entry : Attribute)
deriving DecidableEq, Repr

namespace Mark

def id? : Mark → Option String
  | id value => some value
  | _ => none

def className? : Mark → Option String
  | className value => some value
  | _ => none

def other? : Mark → Option Attribute
  | other entry => some entry
  | _ => none

def entry : Mark → Attribute
  | id value => ⟨"id", some value⟩
  | className value => ⟨"class", some value⟩
  | other entry => entry

def ofWord : List Char → Mark
  | '#' :: value => id (.ofList value)
  | '.' :: value => className (.ofList value)
  | word =>
    match word.dropWhile (· ≠ '=') with
    | [] => other ⟨.ofList word, none⟩
    | _ :: value => other ⟨.ofList (word.takeWhile (· ≠ '=')), some (.ofList value)⟩

end Mark

structure ReadAttributes where
  id : Option String
  classes : List String
  attributes : List Attribute
deriving DecidableEq, Repr

namespace ReadAttributes

/-- The last of several ids wins. -/
def ofMarks (marks : List Mark) : ReadAttributes where
  id := (marks.filterMap Mark.id?).getLast?
  classes := marks.filterMap Mark.className?
  attributes := marks.filterMap Mark.other?

def build (read : ReadAttributes) : Attributes :=
  Builder.headingAttributes read.id read.classes read.attributes

end ReadAttributes

def words (space : Char → Bool) (text : List Char) : List (List Char) :=
  (text.splitOnP space).filter (· ≠ [])

/-- What stands behind the text of a heading: nothing, or the words of a block in braces. -/
def readMarks? (space : Char → Bool) : List Char → Option (List Mark)
  | [] => some []
  | ' ' :: '{' :: rest =>
    if rest.dropWhile (· ≠ '}') = ['}'] then
      some ((words space (rest.takeWhile (· ≠ '}'))).map Mark.ofWord)
    else none
  | _ => none

def readBlock? (space : Char → Bool) (text : List Char) : Option ReadAttributes :=
  (readMarks? space text).map .ofMarks

/-- A notion of white space: a space is, and no sign with a meaning in a block. -/
structure Separates (space : Char → Bool) : Prop where
  blank : space ' ' = true
  hash : space '#' = false
  dot : space '.' = false
  equals : space '=' = false

def IsPlain (space : Char → Bool) (text : List Char) : Prop :=
  text ≠ [] ∧ ∀ c ∈ text, space c = false ∧ c ≠ '{' ∧ c ≠ '}'

instance (space : Char → Bool) (text : List Char) : Decidable (IsPlain space text) :=
  @instDecidableAnd _ _ inferInstance (List.decidableBAll _ text)

structure IsName (space : Char → Bool) (name : List Char) : Prop where
  plain : IsPlain space name
  notId : name.head? ≠ some '#'
  notClass : name.head? ≠ some '.'
  bare : '=' ∉ name

end Reader

section Order

def isId (entry : Attribute) : Bool := entry.name = "id" && entry.value.isSome

def isClass (entry : Attribute) : Bool := entry.name = "class" && entry.value.isSome

/-- An id stands behind nothing, and classes stand behind an id and classes only. -/
def InOrder (entries : List Attribute) : Prop :=
  entries.Pairwise fun entry later =>
    isId later = false ∧ (isClass later = true → isId entry = true ∨ isClass entry = true)

instance (entries : List Attribute) : Decidable (InOrder entries) :=
  inferInstanceAs (Decidable (entries.Pairwise _))

def sorted (entries : List Attribute) : List Attribute :=
  (entries.filter isId).getLast?.toList ++ entries.filter isClass
    ++ entries.filter fun entry => !isId entry && !isClass entry

variable {entry : Attribute} {entries : List Attribute}

theorem isClass_of_isId (named : isId entry = true) : isClass entry = false := by
  simp only [isId, Bool.and_eq_true, decide_eq_true_eq] at named
  simp [isClass, named.1]

theorem mem_of_mem_sorted (member : entry ∈ sorted entries) : entry ∈ entries := by
  simp only [sorted, List.mem_append, Option.mem_toList, List.mem_filter] at member
  rcases member with (last | ⟨member, -⟩) | ⟨member, -⟩
  · exact (List.mem_filter.mp (List.mem_of_getLast? last)).1
  · exact member
  · exact member

theorem inOrder_sorted (entries : List Attribute) : InOrder (sorted entries) := by
  have ids : ∀ entry ∈ (entries.filter isId).getLast?.toList, isId entry = true :=
    fun entry last =>
      (List.mem_filter.mp (List.mem_of_getLast? (Option.mem_toList.mp last))).2
  have classes : ∀ entry ∈ entries.filter isClass, isClass entry = true :=
    fun entry member => (List.mem_filter.mp member).2
  have others (entry : Attribute) :
      ∀ later ∈ entries.filter fun entry => !isId entry && !isClass entry,
        isId later = false ∧ (isClass later = true → isId entry = true ∨ isClass entry = true) := by
    intro later behind
    obtain ⟨notId, notClass⟩ : isId later = false ∧ isClass later = false := by
      simpa using (List.mem_filter.mp behind).2
    exact ⟨notId, fun among => by simp [notClass] at among⟩
  have notId {entry : Attribute} (among : isClass entry = true) : isId entry = false := by
    cases named : isId entry with
    | false => rfl
    | true => rw [isClass_of_isId named] at among; contradiction
  -- one id, the classes, the others: each part by itself, then against those before it
  refine List.pairwise_append.mpr ⟨List.pairwise_append.mpr ⟨?_, ?_, ?_⟩, ?_, ?_⟩
  · cases (entries.filter isId).getLast? <;> simp
  · exact List.pairwise_of_forall_mem_list fun entry member later behind =>
      ⟨notId (classes later behind), fun _ => .inr (classes entry member)⟩
  · exact fun entry member later behind =>
      ⟨notId (classes later behind), fun _ => .inl (ids entry member)⟩
  · exact List.pairwise_of_forall_mem_list fun entry _ => others entry
  · exact fun entry _ => others entry

theorem sorted_eq_self (ordered : InOrder entries) : sorted entries = entries := by
  induction entries with
  | nil => rfl
  | cons entry rest ih =>
    obtain ⟨first, ordered⟩ := List.pairwise_cons.mp ordered
    have again := ih ordered
    have noId : rest.filter isId = [] :=
      List.filter_eq_nil_iff.mpr fun later member => by simp [(first later member).1]
    rw [sorted, noId] at again
    cases ofId : isId entry with
    | true =>
      have notClass := isClass_of_isId ofId
      simpa [sorted, ofId, notClass, noId] using again
    | false =>
      cases ofClass : isClass entry with
      | true => simpa [sorted, ofId, ofClass, noId] using again
      | false =>
        have noClass : rest.filter isClass = [] :=
          List.filter_eq_nil_iff.mpr fun later member among => by
            simpa [ofId, ofClass] using (first later member).2 among
        rw [noClass] at again
        simpa [sorted, ofId, ofClass, noId, noClass] using again

theorem sorted_eq_iff : sorted entries = entries ↔ InOrder entries := by
  refine ⟨fun same => ?_, sorted_eq_self⟩
  rw [← same]
  exact inOrder_sorted entries

end Order

section Writer

variable {space : Char → Bool} {entry : Attribute} {entries : List Attribute}

def blockText (attributes : Attributes) : String :=
  if attributes.isEmpty then ""
  else " \x7b" ++ " ".intercalate (attributes.entries.map attributeText) ++ "\x7d"

theorem applyAll_headingAttributes (attributes : Attributes) (page : Page) :
    ∃ next, page.applyAll (headingAttributes attributes) = (next, none) ∧
      next.text = page.text ++ blockText attributes := by
  unfold headingAttributes blockText
  split
  · exact ⟨page, rfl, by simp⟩
  · refine ⟨_, rfl, ?_⟩
    simp only [Page.text_write, String.append_assoc]

/-- What a reader makes of an attribute in the notation that is written. -/
def Mark.ofEntry (entry : Attribute) : Mark :=
  match entry with
  | ⟨"id", some value⟩ => id value
  | ⟨"class", some value⟩ => className value
  | entry => other entry

structure Readable (space : Char → Bool) (entry : Attribute) : Prop where
  value : ∀ value ∈ entry.value, IsPlain space value.toList
  name : isId entry = false → isClass entry = false → IsName space entry.name.toList

theorem IsPlain.cons {c : Char} {text : List Char} (plain : IsPlain space text)
    (first : space c = false ∧ c ≠ '{' ∧ c ≠ '}') : IsPlain space (c :: text) :=
  ⟨by simp, List.forall_mem_cons.mpr ⟨first, plain.2⟩⟩

theorem IsPlain.append {left right : List Char} (first : IsPlain space left)
    (second : IsPlain space right) : IsPlain space (left ++ right) :=
  ⟨by simp [first.1], List.forall_mem_append.mpr ⟨first.2, second.2⟩⟩

theorem IsName.ofWord {name : List Char} (named : IsName space name) :
    Mark.ofWord name = .other ⟨.ofList name, none⟩ := by
  have kept : ∀ c ∈ name, decide (c ≠ '=') = true := fun c member =>
    decide_eq_true fun equals => named.bare (equals ▸ member)
  unfold Mark.ofWord
  split
  · exact absurd rfl named.notId
  · exact absurd rfl named.notClass
  · rw [List.dropWhile_eq_nil_iff.mpr kept]

theorem IsName.ofWord_pair {name : List Char} (named : IsName space name) (value : List Char) :
    Mark.ofWord (name ++ '=' :: value) = .other ⟨.ofList name, some (.ofList value)⟩ := by
  obtain ⟨first, rest, rfl⟩ := List.exists_cons_of_ne_nil named.plain.1
  have kept : ∀ c ∈ first :: rest, decide (c ≠ '=') = true := fun c member =>
    decide_eq_true fun equals => named.bare (equals ▸ member)
  have dropped : (first :: rest ++ '=' :: value).dropWhile (· ≠ '=') = '=' :: value := by
    rw [List.dropWhile_append_of_pos kept]
    rfl
  have taken : (first :: rest ++ '=' :: value).takeWhile (· ≠ '=') = first :: rest := by
    rw [List.takeWhile_append_of_pos kept]
    simp
  unfold Mark.ofWord
  split
  · rename_i signed
    exact absurd (congrArg List.head? signed) named.notId
  · rename_i signed
    exact absurd (congrArg List.head? signed) named.notClass
  · rw [dropped, taken]

theorem attributeText_cases (entry : Attribute) :
    (∃ value, entry = ⟨"id", some value⟩ ∧ (attributeText entry).toList = '#' :: value.toList ∧
      Mark.ofEntry entry = .id value) ∨
    (∃ value, entry = ⟨"class", some value⟩ ∧ (attributeText entry).toList = '.' :: value.toList ∧
      Mark.ofEntry entry = .className value) ∨
    (isId entry = false ∧ isClass entry = false ∧ Mark.ofEntry entry = .other entry ∧
      (attributeText entry).toList = entry.name.toList ++
        (entry.value.toList.map fun value => '=' :: value.toList).flatten) := by
  obtain ⟨name, value⟩ := entry
  cases value with
  | none => exact .inr (.inr ⟨by simp [isId], by simp [isClass], by simp [Mark.ofEntry],
      by simp [attributeText]⟩)
  | some value =>
    by_cases ofId : name = "id"
    · subst ofId
      exact .inl ⟨value, rfl, by simp [attributeText], rfl⟩
    · by_cases ofClass : name = "class"
      · subst ofClass
        exact .inr (.inl ⟨value, rfl, by simp [attributeText], rfl⟩)
      · exact .inr (.inr ⟨by simp [isId, ofId], by simp [isClass, ofClass],
          by simp [Mark.ofEntry, ofId, ofClass], by simp [attributeText]⟩)

theorem ofWord_attributeText (readable : Readable space entry) :
    Mark.ofWord (attributeText entry).toList = Mark.ofEntry entry := by
  rcases attributeText_cases entry with
    ⟨value, rfl, written, mark⟩ | ⟨value, rfl, written, mark⟩ | ⟨notId, notClass, mark, written⟩
  · rw [written, mark, Mark.ofWord, String.ofList_toList]
  · rw [written, mark, Mark.ofWord, String.ofList_toList]
  · have named := readable.name notId notClass
    obtain ⟨name, value⟩ := entry
    rw [written, mark]
    cases value with
    | none => simpa using named.ofWord
    | some value => simpa using named.ofWord_pair value.toList

theorem isPlain_attributeText (separates : Separates space) (readable : Readable space entry) :
    IsPlain space (attributeText entry).toList := by
  have value := readable.value
  rcases attributeText_cases entry with
    ⟨text, rfl, written, -⟩ | ⟨text, rfl, written, -⟩ | ⟨notId, notClass, -, written⟩
  · rw [written]
    exact (value text rfl).cons ⟨separates.hash, by decide, by decide⟩
  · rw [written]
    exact (value text rfl).cons ⟨separates.dot, by decide, by decide⟩
  · have named := (readable.name notId notClass).plain
    obtain ⟨name, text⟩ := entry
    rw [written]
    cases text with
    | none => simpa using named
    | some text =>
      simpa using named.append ((value text rfl).cons ⟨separates.equals, by decide, by decide⟩)

theorem words_of_plain {part : List Char} (plain : IsPlain space part) :
    words space part = [part] := by
  rw [words, List.splitOnP_eq_singleton fun c member => (plain.2 c member).1]
  simp [plain.1]

theorem words_append_blank (blank : space ' ' = true) (left right : List Char) :
    words space (left ++ ' ' :: right) = words space left ++ words space right := by
  rw [words, List.splitOnP_append_cons left right blank, List.filter_append]
  rfl

theorem words_intercalate (blank : space ' ' = true) {parts : List (List Char)}
    (plain : ∀ part ∈ parts, IsPlain space part) : words space ([' '].intercalate parts) = parts := by
  induction parts with
  | nil => simp [words]
  | cons part rest ih =>
    obtain ⟨first, others⟩ := List.forall_mem_cons.mp plain
    cases rest with
    | nil => simpa using words_of_plain first
    | cons next rest =>
      rw [List.intercalate_cons_cons, List.append_assoc, List.singleton_append,
        words_append_blank blank, words_of_plain first, ih others]
      rfl

theorem toList_blockText (some : entries ≠ []) :
    (blockText ⟨entries⟩).toList = ' ' :: '{' ::
      ([' '].intercalate (entries.map fun entry => (attributeText entry).toList) ++ ['}']) := by
  have filled : Attributes.isEmpty ⟨entries⟩ = false := by simpa [Attributes.isEmpty] using some
  rw [blockText, filled]
  simp [String.toList_intercalate, Function.comp_def]

theorem readMarks?_blockText (separates : Separates space)
    (readable : ∀ entry ∈ entries, Readable space entry) :
    readMarks? space (blockText ⟨entries⟩).toList = some (entries.map Mark.ofEntry) := by
  by_cases empty : entries = []
  · subst empty
    rfl
  have plain : ∀ part ∈ entries.map fun entry => (attributeText entry).toList,
      IsPlain space part := by
    intro part member
    obtain ⟨entry, among, rfl⟩ := List.mem_map.mp member
    exact isPlain_attributeText separates (readable entry among)
  -- no brace inside, so the first one that closes is the last character
  have noBrace := not_mem_intercalate (by decide : '}' ∉ [' '])
    fun part member brace => ((plain part member).2 _ brace).2.2 rfl
  have inside : ∀ c ∈ [' '].intercalate (entries.map fun entry => (attributeText entry).toList),
      decide (c ≠ '}') = true := fun c member =>
    decide_eq_true fun brace => noBrace (brace ▸ member)
  have marks : (entries.map fun entry => (attributeText entry).toList).map Mark.ofWord =
      entries.map Mark.ofEntry := by
    rw [List.map_map]
    exact List.map_congr_left fun entry among => ofWord_attributeText (readable entry among)
  rw [toList_blockText empty, readMarks?, List.dropWhile_append_of_pos inside,
    List.takeWhile_append_of_pos inside]
  simp [words_intercalate separates.blank plain, ← marks]

theorem map_filterMap_ofEntry {β : Type} {read : Mark → Option β} {wrap : β → Attribute}
    {sort : Attribute → Bool}
    (each : ∀ entry, (read (Mark.ofEntry entry)).map wrap = Option.guard sort entry)
    (entries : List Attribute) :
    ((entries.map Mark.ofEntry).filterMap read).map wrap = entries.filter sort := by
  have all : (fun entry => (read (Mark.ofEntry entry)).map wrap) = Option.guard sort := funext each
  rw [List.filterMap_map, List.map_filterMap, ← List.filterMap_eq_filter]
  exact congrArg (entries.filterMap ·) all

theorem build_ofMarks (entries : List Attribute) :
    (ReadAttributes.ofMarks (entries.map Mark.ofEntry)).build = ⟨sorted entries⟩ := by
  let marks := entries.map Mark.ofEntry
  have ids : (marks.filterMap Mark.id?).map (fun id => ⟨"id", some id⟩) = entries.filter isId := by
    refine map_filterMap_ofEntry (fun entry => ?_) entries
    rcases attributeText_cases entry with
      ⟨value, rfl, -, mark⟩ | ⟨value, rfl, -, mark⟩ | ⟨notId, -, mark, -⟩
    · rfl
    · rfl
    · simp [mark, Mark.id?, Option.guard, notId]
  have classes : (marks.filterMap Mark.className?).map (fun name => ⟨"class", some name⟩) =
      entries.filter isClass := by
    refine map_filterMap_ofEntry (fun entry => ?_) entries
    rcases attributeText_cases entry with
      ⟨value, rfl, -, mark⟩ | ⟨value, rfl, -, mark⟩ | ⟨-, notClass, mark, -⟩
    · rfl
    · rfl
    · simp [mark, Mark.className?, Option.guard, notClass]
  have others : (marks.filterMap Mark.other?).map id =
      entries.filter fun entry => !isId entry && !isClass entry := by
    refine map_filterMap_ofEntry (fun entry => ?_) entries
    rcases attributeText_cases entry with
      ⟨value, rfl, -, mark⟩ | ⟨value, rfl, -, mark⟩ | ⟨notId, notClass, mark, -⟩
    · rfl
    · rfl
    · simp [mark, Mark.other?, Option.guard, notId, notClass]
  rw [List.map_id] at others
  rw [sorted, ← ids, ← classes, ← others, List.getLast?_map, Option.toList_map]
  rfl

theorem entry_ofEntry : Function.LeftInverse Mark.entry Mark.ofEntry := by
  intro entry
  rcases attributeText_cases entry with
    ⟨value, rfl, -, mark⟩ | ⟨value, rfl, -, mark⟩ | ⟨-, -, mark, -⟩
  · rfl
  · rfl
  · rw [mark, Mark.entry]

theorem blockText_inj (separates : Separates space)
    (readable : ∀ entry ∈ entries, Readable space entry) {others : List Attribute}
    (othersReadable : ∀ entry ∈ others, Readable space entry) :
    blockText ⟨others⟩ = blockText ⟨entries⟩ ↔ others = entries := by
  refine ⟨fun same => ?_, fun same => by rw [same]⟩
  have marks := readMarks?_blockText separates othersReadable
  rw [same, readMarks?_blockText separates readable] at marks
  exact ((List.map_inj_right fun _ _ equal => entry_ofEntry.injective equal).mp
    (Option.some.inj marks)).symm

end Writer

section RoundTrip

variable {space : Char → Bool} {id : Option String} {classes : List String}
  {attributes : List Attribute}

structure ReadableStart (space : Char → Bool) (id : Option String) (classes : List String)
    (attributes : List Attribute) : Prop where
  id : ∀ value ∈ id, IsPlain space value.toList
  classes : ∀ value ∈ classes, IsPlain space value.toList
  names : ∀ entry ∈ attributes, IsName space entry.name.toList
  values : ∀ entry ∈ attributes, ∀ value ∈ entry.value, IsPlain space value.toList

theorem ReadableStart.readable (start : ReadableStart space id classes attributes) :
    ∀ entry ∈ (Builder.headingAttributes id classes attributes).entries, Readable space entry := by
  intro entry member
  simp only [Builder.headingAttributes, List.mem_append, List.mem_map, Option.mem_toList] at member
  rcases member with (⟨value, given, rfl⟩ | ⟨value, among, rfl⟩) | among
  · exact ⟨by simpa using start.id value given, fun notId => by simp [isId] at notId⟩
  · exact ⟨by simpa using start.classes value among, fun _ notClass => by simp [isClass] at notClass⟩
  · exact ⟨start.values entry among, fun _ _ => start.names entry among⟩

/-- The attributes of a heading come back as they were, and are written as before, just if they are
    in order: no id but the first of all, and no class behind another attribute. -/
theorem headingAttributes_read_back_iff (separates : Separates space)
    (start : ReadableStart space id classes attributes) (builder : Builder) (level : Nat)
    (span : Span) :
    let opened := builder.openNode (.heading level id classes attributes) span
    (∀ (view : View) (page : Page), view.node.payload = opened.payload →
      view.node.attributes = opened.attributes →
      ∃ next, page.applyAll (leave view).strokes = (next, none) ∧
        next.text = page.text ++ blockText opened.attributes) ∧
    ∃ read, readBlock? space (blockText opened.attributes).toList = some read ∧
      (read.build = opened.attributes ↔ InOrder opened.attributes.entries) ∧
      (blockText read.build = blockText opened.attributes ↔ InOrder opened.attributes.entries) := by
  intro opened
  have readable : ∀ entry ∈ opened.attributes.entries, Readable space entry := start.readable
  have sortedReadable : ∀ entry ∈ sorted opened.attributes.entries, Readable space entry :=
    fun entry member => readable entry (mem_of_mem_sorted member)
  constructor
  · intro view page payload carried
    have strokes : (leave view).strokes = headingAttributes opened.attributes := by
      rw [leave, payload, ← carried]
      rfl
    rw [strokes]
    exact applyAll_headingAttributes opened.attributes page
  · refine ⟨_, by rw [readBlock?, readMarks?_blockText separates readable]; rfl, ?_, ?_⟩
    · rw [build_ofMarks, ← sorted_eq_iff]
      exact ⟨fun same => congrArg Attributes.entries same, fun same => congrArg Attributes.mk same⟩
    · rw [build_ofMarks, ← sorted_eq_iff]
      exact blockText_inj separates readable sortedReadable

theorem headingAttributes_read_back_lateId :
    let opened := (Builder.ofSource (.ofString "# T {.a id=x}") true).openNode
      (.heading 1 none ["a"] [⟨"id", some "x"⟩]) ⟨0, 13⟩
    ∃ read, readBlock? Unicode.isWhiteSpace (blockText opened.attributes).toList = some read ∧
      read.build ≠ opened.attributes ∧ blockText read.build ≠ blockText opened.attributes := by
  intro opened
  have start : ReadableStart Unicode.isWhiteSpace none ["a"] [⟨"id", some "x"⟩] :=
    { id := fun _ given => nomatch given
      classes := List.forall_mem_singleton.mpr (by decide)
      names := List.forall_mem_singleton.mpr ⟨by decide, by decide, by decide, by decide⟩
      values := List.forall_mem_singleton.mpr (by
        rintro value ⟨⟩
        decide) }
  have late : ¬InOrder opened.attributes.entries := by decide
  have separates : Separates Unicode.isWhiteSpace := ⟨by decide, by decide, by decide, by decide⟩
  obtain ⟨-, read, block, same, again⟩ := headingAttributes_read_back_iff separates start
    (Builder.ofSource (.ofString "# T {.a id=x}") true) 1 ⟨0, 13⟩
  exact ⟨read, block, fun equal => late (same.mp equal), fun equal => late (again.mp equal)⟩

def lateId : List Event :=
  [⟨.start (.heading 1 none ["a"] [⟨"id", some "x"⟩]), ⟨0, 13⟩⟩, ⟨.text "T", ⟨2, 3⟩⟩,
    ⟨.close, ⟨0, 13⟩⟩]

def lateIdAgain : List Event :=
  [⟨.start (.heading 1 (some "x") ["a"] []), ⟨0, 11⟩⟩, ⟨.text "T", ⟨2, 3⟩⟩, ⟨.close, ⟨0, 11⟩⟩]

theorem reordered_lateId :
    readBlock? Unicode.isWhiteSpace " {.a #x}".toList = some ⟨some "x", ["a"], []⟩ ∧
    ∃ conversion, Conversion.ofOptions .markdown {} = .ok conversion ∧
      conversion.convert (.ofString "# T {.a id=x}") lateId = .ok "# T {.a #x}" ∧
      conversion.convert (.ofString "# T {.a #x}") lateIdAgain = .ok "# T {#x .a}" :=
  ⟨by decide, _, Conversion.ofOptions_markdown {}, rfl, rfl⟩

end RoundTrip

end CanonicalMarkdown.Markdown
