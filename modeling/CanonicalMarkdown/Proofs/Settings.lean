import CanonicalMarkdown.Config
import CanonicalMarkdown.Text.Utf8
import Mathlib.Data.List.Infix

namespace CanonicalMarkdown

structure Setting where
  table : String
  name : String
  fallback : Bool
  value : Config → Bool

namespace Setting

def all : List Setting := [
  ⟨"parser", "heading_attributes", true, (·.reader.headingAttributes)⟩,
  ⟨"parser", "tables", true, (·.reader.tables)⟩,
  ⟨"parser", "definition_lists", true, (·.reader.definitionLists)⟩,
  ⟨"parser", "linkify", true, (·.reader.linkify)⟩,
  ⟨"html", "smart_punctuation", true, (·.html.smartPunctuation)⟩,
  ⟨"html", "heading_ids", true, (·.html.headingIds)⟩,
  ⟨"html", "external_links", true, (·.html.externalLinks)⟩,
  ⟨"markdown", "verbose_padding", false, (·.markdown.verbosePadding)⟩]

def namesIn (table : String) : List String := (all.filter (·.table = table)).map (·.name)

def given? (setting : Setting) (entries : Toml.Entries) : Option Toml.Value :=
  match entries.lookup setting.table with
  | some (.table _ inner) => inner.lookup setting.name
  | some (.array items) | some (.tables items) =>
    ((namesIn setting.table).zip items).lookup setting.name
  | _ => none

/-- A configuration has for a setting what the document has, and else the default. -/
def Follows (setting : Setting) (entries : Toml.Entries) (config : Config) : Prop :=
  setting.given? entries = none ∧ setting.value config = setting.fallback ∨
    setting.given? entries = some (.boolean (setting.value config))

theorem Follows.value_eq {setting : Setting} {entries : Toml.Entries} {config other : Config}
    (first : setting.Follows entries config) (second : setting.Follows entries other) :
    setting.value config = setting.value other := by
  rcases first with ⟨absent, default⟩ | given <;> rcases second with ⟨absent', default'⟩ | given'
  · rw [default, default']
  · rw [absent] at given'
    contradiction
  · rw [absent'] at given
    contradiction
  · rw [given] at given'
    simpa using given'

end Setting

namespace Config

theorem ext_value {config other : Config} (path : config.path = other.path)
    (values : ∀ setting ∈ Setting.all, setting.value config = setting.value other) :
    config = other := by
  obtain ⟨⟨_, _, _, _⟩, ⟨_, _, _⟩, ⟨_⟩, _⟩ := config
  obtain ⟨⟨_, _, _, _⟩, ⟨_, _, _⟩, ⟨_⟩, _⟩ := other
  simp only [Setting.all, List.forall_mem_cons] at values
  simp_all

theorem value_default : ∀ setting ∈ Setting.all, setting.value {} = setting.fallback := by
  simp [Setting.all]

section entries

variable {entries inner : Toml.Entries} {names : List String} {table name : String}
  {fallback flag : Bool}

theorem flagOf_eq_some (found : flagOf name fallback entries = some flag) :
    entries.lookup name = none ∧ flag = fallback ∨ entries.lookup name = some (.boolean flag) := by
  unfold flagOf at found
  split at found
  · rename_i absent
    exact .inl ⟨absent, (Option.some.inj found).symm⟩
  · rename_i given
    rw [Option.some.inj found] at given
    exact .inr given
  · contradiction

theorem follows_of_flagOf {setting : Setting} {config : Config}
    (opened : sectionOf setting.table (Setting.namesIn setting.table) entries = some inner)
    (found : flagOf setting.name setting.fallback inner = some (setting.value config)) :
    setting.Follows entries config := by
  have given : setting.given? entries = inner.lookup setting.name := by
    unfold sectionOf at opened
    unfold Setting.given?
    cases stands : entries.lookup setting.table with
    | none =>
      rw [stands] at opened
      rw [← Option.some.inj opened]
      rfl
    | some value =>
      rw [stands, Option.elim_some] at opened
      cases value <;> simp_all [sectionEntries]
  rw [Setting.Follows, given]
  exact (flagOf_eq_some found).imp_left fun ⟨absent, default⟩ => ⟨absent, default⟩

theorem follows_path {setting : Setting} (member : setting ∈ Setting.all) {config : Config}
    (path : Option String) :
    setting.Follows entries { config with path } ↔ setting.Follows entries config := by
  have same : ∀ setting ∈ Setting.all, setting.value { config with path } = setting.value config := by
    simp [Setting.all]
  simp only [Setting.Follows, same setting member]

theorem follows_of_ofEntries {config : Config} (accepted : ofEntries entries = some config) :
    config.path = none ∧ ∀ setting ∈ Setting.all, setting.Follows entries config := by
  unfold ofEntries at accepted
  split at accepted
  · simp only [readerOf, htmlOf, markdownOf, Option.bind_eq_bind, Option.bind_eq_some_iff,
      Option.pure_def, Option.some.injEq] at accepted
    obtain ⟨parser, inParser, _, ⟨_, attributes, _, tables, _, lists, _, linkify, rfl⟩,
      html, inHtml, _, ⟨_, punctuation, _, ids, _, links, rfl⟩,
      markdown, inMarkdown, _, ⟨_, padding, rfl⟩, rfl⟩ := accepted
    refine ⟨rfl, ?_⟩
    simp only [Setting.all, List.forall_mem_cons]
    exact ⟨follows_of_flagOf inParser attributes, follows_of_flagOf inParser tables,
      follows_of_flagOf inParser lists, follows_of_flagOf inParser linkify,
      follows_of_flagOf inHtml punctuation, follows_of_flagOf inHtml ids,
      follows_of_flagOf inHtml links, follows_of_flagOf inMarkdown padding, by simp⟩
  · contradiction

end entries

section choice

/-- The first directory that has a configuration file, from one upwards to the root. -/
structure IsNearest (files : FileSystem) (directory outer : Location) : Prop where
  above : outer <:+ directory
  holds : files.isFile (fileName :: outer) = true
  first : ∀ closer, closer <:+ directory → outer.length < closer.length →
    files.isFile (fileName :: closer) = false

def NoneAbove (files : FileSystem) (directory : Location) : Prop :=
  ∀ outer, outer <:+ directory → files.isFile (fileName :: outer) = false

/-- The file that settings are read from, by the path that it is known by, or none. -/
inductive Chooses (files : FileSystem) (directory : Location) :
    Option String → Option (String × List UInt8) → Prop
  | named {path : String} {location : Location} {bytes : List UInt8} :
      files.existing directory path = .ok (location, .file bytes) →
      Chooses files directory (some path) (some (path, bytes))
  | nearest {outer : Location} {bytes : List UInt8} :
      IsNearest files directory outer →
      files.find? (fileName :: outer) = some (.file bytes) →
      Chooses files directory none
        (some (FileSystem.absolutePath (fileName :: outer), bytes))
  | nothing : NoneAbove files directory → Chooses files directory none none

/-- The configuration that a chosen file holds. -/
def Holds (read : FileReader) : Option (String × List UInt8) → Config → Prop
  | none, config =>
    config.path = none ∧ ∀ setting ∈ Setting.all, setting.value config = setting.fallback
  | some (path, bytes), config =>
    config.path = some path ∧ ∃ text entries, FileSystem.textOf bytes = .ok text ∧
      read text = some entries ∧ (ofEntries entries).isSome ∧
      ∀ setting ∈ Setting.all, setting.Follows entries config

variable {files : FileSystem} {directory outer location : Location} {path : Option String}
  {overrides : Option Overrides} {read : FileReader} {config : Config}

theorem isFile_iff : files.isFile location = true ↔
    ∃ bytes, files.find? location = some (.file bytes) := by
  unfold FileSystem.isFile
  cases files.find? location with
  | none => simp
  | some entry => cases entry <;> simp

theorem exists?_iff {named : String} : files.exists? directory named = true ↔
    ∃ found, files.existing directory named = .ok found := by
  unfold FileSystem.exists?
  cases files.existing directory named <;> simp [Except.toOption]

theorem mem_candidates_iff : location ∈ candidates directory ↔
    ∃ outer, outer <:+ directory ∧ location = fileName :: outer := by
  induction directory with
  | nil => simp [candidates]
  | cons name parent ih =>
    rw [candidates, List.mem_cons, ih]
    simp only [List.suffix_cons_iff, or_and_right, exists_or, exists_eq_left]

theorem nearest_eq_none_iff : nearest files directory = none ↔ NoneAbove files directory := by
  simp only [nearest, List.find?_eq_none, mem_candidates_iff, NoneAbove, Bool.not_eq_true]
  grind

theorem isNearest_self (there : files.isFile (fileName :: directory) = true) :
    IsNearest files directory outer ↔ outer = directory := by
  constructor
  · rintro ⟨above, -, first⟩
    by_contra other
    have shorter : outer.length < directory.length :=
      Nat.lt_of_le_of_ne above.length_le fun same => other (above.eq_of_length same)
    rw [first directory (List.suffix_refl _) shorter] at there
    contradiction
  · rintro rfl
    exact ⟨List.suffix_refl _, there, fun closer below longer =>
      absurd below.length_le (Nat.not_le.mpr longer)⟩

theorem isNearest_cons {name : String} (absent : files.isFile (fileName :: name :: directory) = false) :
    IsNearest files (name :: directory) outer ↔ IsNearest files directory outer := by
  constructor
  · rintro ⟨above, holds, first⟩
    rcases List.suffix_cons_iff.mp above with rfl | above
    · rw [absent] at holds
      contradiction
    · exact ⟨above, holds, fun closer below => first closer (below.trans (List.suffix_cons ..))⟩
  · rintro ⟨above, holds, first⟩
    refine ⟨above.trans (List.suffix_cons ..), holds, fun closer below longer => ?_⟩
    rcases List.suffix_cons_iff.mp below with rfl | below
    · exact absent
    · exact first closer below longer

theorem nearest_eq_some_iff : nearest files directory = some location ↔
    ∃ outer, location = fileName :: outer ∧ IsNearest files directory outer := by
  unfold nearest
  induction directory with
  | nil =>
    cases there : files.isFile [fileName] with
    | true => simp [candidates, there, isNearest_self there, eq_comm]
    | false =>
      have unfound : ∀ outer, ¬IsNearest files [] outer := by
        rintro outer ⟨above, holds, -⟩
        rw [List.suffix_nil.mp above, there] at holds
        contradiction
      simp [candidates, there, unfound]
  | cons name parent ih =>
    cases there : files.isFile (fileName :: name :: parent) with
    | true => simp [candidates, there, isNearest_self there, eq_comm]
    | false => simp only [candidates, List.find?_cons, there, ih, isNearest_cons there]

theorem holds_none_iff : Holds read none config ↔ config = {} := by
  constructor
  · rintro ⟨path, values⟩
    refine ext_value path fun setting member => ?_
    rw [values setting member, value_default setting member]
  · rintro rfl
    exact ⟨rfl, value_default⟩

theorem ofText_eq_ok_iff {text : String} : ofText text read = .ok config ↔
    ∃ entries, read text = some entries ∧ ofEntries entries = some config := by
  unfold ofText
  rw [← Option.bind_eq_some_iff]
  cases (read text).bind ofEntries <;> simp

theorem ofFile_eq_ok_iff {named : String} {bytes : List UInt8} :
    ofFile named (FileSystem.textOf bytes) read = .ok config ↔
      Holds read (some (named, bytes)) config := by
  unfold ofFile
  cases content : FileSystem.textOf bytes with
  | error error => simp [Holds, content]
  | ok text =>
    simp only [Holds, content, Except.ok.injEq]
    constructor
    · intro loaded
      cases base : ofText text read with
      | error error => simp [base, Except.map] at loaded
      | ok base' =>
        obtain rfl : { base' with path := some named } = config := by
          simpa [base, Except.map] using loaded
        obtain ⟨entries, read, accepted⟩ := ofText_eq_ok_iff.mp base
        refine ⟨rfl, text, entries, rfl, read, Option.isSome_of_eq_some accepted, fun setting member => ?_⟩
        exact (follows_path member _).mpr ((follows_of_ofEntries accepted).2 setting member)
    · rintro ⟨path, _, entries, rfl, read, accepted, follows⟩
      obtain ⟨base, accepted⟩ := Option.isSome_iff_exists.mp accepted
      rw [ofText_eq_ok_iff.mpr ⟨entries, read, accepted⟩]
      -- the document decides about each setting, so there is no other configuration
      refine congrArg Except.ok (ext_value path.symm fun setting member => ?_)
      exact ((follows_path member _).mpr ((follows_of_ofEntries accepted).2 setting member)).value_eq
        (follows setting member)

theorem fileOrDefaults_some_eq_ok_iff {named : String} :
    fileOrDefaults files directory (some named) read = .ok config ↔
      ∃ choice, Chooses files directory (some named) choice ∧ Holds read choice config := by
  simp only [fileOrDefaults, FileSystem.exists?, FileSystem.readText]
  constructor
  · intro loaded
    cases found : files.existing directory named with
    | error error => simp [found, Except.toOption] at loaded
    | ok place =>
      obtain ⟨location, entry⟩ := place
      cases entry with
      | directory => simp [found, Except.toOption, ofFile] at loaded
      | file bytes =>
        refine ⟨some (named, bytes), .named found, ofFile_eq_ok_iff.mp ?_⟩
        simpa [found, Except.toOption] using loaded
  · rintro ⟨choice, chooses, holds⟩
    cases chooses with
    | named found => simpa [found, Except.toOption] using ofFile_eq_ok_iff.mpr holds

theorem fileOrDefaults_none_eq_ok_iff : fileOrDefaults files directory none read = .ok config ↔
    ∃ choice, Chooses files directory none choice ∧ Holds read choice config := by
  simp only [fileOrDefaults]
  constructor
  · intro loaded
    cases found : nearest files directory with
    | none =>
      refine ⟨none, .nothing (nearest_eq_none_iff.mp found), holds_none_iff.mpr ?_⟩
      simpa [found, eq_comm] using loaded
    | some location =>
      obtain ⟨outer, rfl, isNearest⟩ := nearest_eq_some_iff.mp found
      obtain ⟨bytes, stands⟩ := isFile_iff.mp isNearest.holds
      refine ⟨_, .nearest isNearest stands, ofFile_eq_ok_iff.mp ?_⟩
      simpa [found, textAt, stands] using loaded
  · rintro ⟨choice, chooses, holds⟩
    cases chooses with
    | nearest isNearest stands =>
      rw [nearest_eq_some_iff.mpr ⟨_, rfl, isNearest⟩]
      simpa [textAt, stands] using ofFile_eq_ok_iff.mpr holds
    | nothing none =>
      rw [nearest_eq_none_iff.mpr none, holds_none_iff.mp holds]

theorem fileOrDefaults_eq_ok_iff : fileOrDefaults files directory path read = .ok config ↔
    ∃ choice, Chooses files directory path choice ∧ Holds read choice config := by
  cases path with
  | some named => exact fileOrDefaults_some_eq_ok_iff
  | none => exact fileOrDefaults_none_eq_ok_iff

theorem load_none : load files directory path none read = fileOrDefaults files directory path read := by
  unfold load
  cases fileOrDefaults files directory path read <;> rfl

theorem load_overrides : load files directory path overrides read =
    (load files directory path none read).map fun config =>
      { config with markdown.verbosePadding :=
          (overrides.bind (·.verbosePadding)).getD config.markdown.verbosePadding } := by
  rw [load_none, load]
  cases overrides with
  | none => rfl
  | some overrides =>
    obtain ⟨verbosePadding⟩ := overrides
    cases verbosePadding <;> rfl

theorem fileOrDefaults_eq_notFound_iff {missing : String} :
    fileOrDefaults files directory path read = .error (.notFound missing) ↔
      path = some missing ∧ ∀ found, files.existing directory missing ≠ .ok found := by
  have unlike (named : String) (content : Except FileError String) :
      ofFile named content read ≠ .error (.notFound missing) := by
    cases content with
    | error error => simp [ofFile]
    | ok text =>
      simp only [ofFile, ofText]
      cases (read text).bind ofEntries <;> simp [Except.map]
  cases path with
  | none =>
    simp only [fileOrDefaults]
    cases nearest files directory <;> simp [unlike]
  | some path =>
    simp only [fileOrDefaults, Option.some.injEq]
    split
    · rename_i there
      obtain ⟨place, found⟩ := exists?_iff.mp there
      refine iff_of_false (unlike _ _) ?_
      rintro ⟨rfl, absent⟩
      exact absent place found
    · rename_i absent
      rw [exists?_iff, not_exists] at absent
      rw [Except.error.injEq, ConfigError.notFound.injEq]
      refine ⟨?_, And.left⟩
      rintro rfl
      exact ⟨rfl, absent⟩

theorem path_eq_none_iff :
    (∃ config, fileOrDefaults files directory path read = .ok config ∧ config.path = none) ↔
      path = none ∧ NoneAbove files directory := by
  simp only [fileOrDefaults_eq_ok_iff]
  constructor
  · rintro ⟨config, ⟨choice, chooses, holds⟩, unnamed⟩
    cases chooses with
    | nothing none => exact ⟨rfl, none⟩
    | named _ | nearest _ _ =>
      rw [holds.1] at unnamed
      contradiction
  · rintro ⟨rfl, none⟩
    exact ⟨{}, ⟨_, .nothing none, holds_none_iff.mpr rfl⟩, rfl⟩

theorem fileOrDefaults_named {others : FileSystem} {elsewhere : Location} {named : String}
    (same : others.existing elsewhere named = files.existing directory named) :
    fileOrDefaults others elsewhere (some named) read =
      fileOrDefaults files directory (some named) read := by
  have there : others.exists? elsewhere named = files.exists? directory named := by
    rw [FileSystem.exists?, same]
    rfl
  have text : others.readText elsewhere named = files.readText directory named := by
    rw [FileSystem.readText, same]
    rfl
  rw [fileOrDefaults, there, text]
  rfl

end choice

/-- Settings are those of the chosen file: the named one, or else the nearest that is found, or else
    the defaults, which also stand for all that the file does not give. The command line changes the
    padding counter if it says so, and nothing else. A named file fails as missing just if nothing
    is there, and no other file matters then. A configuration has no path just if no file is named
    or found. -/
theorem load_precedence (files : FileSystem) (directory : Location) (path : Option String)
    (overrides : Option Overrides) (read : FileReader) :
    (∀ config, load files directory path none read = .ok config ↔
      ∃ choice, Chooses files directory path choice ∧ Holds read choice config) ∧
    (load files directory path overrides read =
      (load files directory path none read).map fun config =>
        { config with markdown.verbosePadding :=
            (overrides.bind (·.verbosePadding)).getD config.markdown.verbosePadding }) ∧
    (∀ missing, load files directory path overrides read = .error (.notFound missing) ↔
      path = some missing ∧ ∀ found, files.existing directory missing ≠ .ok found) ∧
    (∀ others elsewhere named, others.existing elsewhere named = files.existing directory named →
      load others elsewhere (some named) overrides read =
        load files directory (some named) overrides read) ∧
    ((∃ config, load files directory path overrides read = .ok config ∧ config.path = none) ↔
      path = none ∧ NoneAbove files directory) := by
  refine ⟨fun config => ?_, load_overrides, fun missing => ?_, ?_, ?_⟩
  · rw [load_none, fileOrDefaults_eq_ok_iff]
  · rw [load_overrides, load_none, ← fileOrDefaults_eq_notFound_iff]
    cases fileOrDefaults files directory path read <;> simp [Except.map]
  · intro others elsewhere named same
    rw [load, load, fileOrDefaults_named same]
  · rw [load_overrides, load_none, ← path_eq_none_iff]
    cases fileOrDefaults files directory path read <;> simp [Except.map]

def nested : FileSystem := ⟨[(["a"], .directory), (["b", "a"], .directory),
  (["ctb.toml", "b", "a"], .directory),
  (["ctb.toml", "a"], .file (Text.bytes "[markdown]\nverbose_padding = true\n".toList))]⟩

theorem load_precedence_nested :
    load nested ["b", "a"] none none =
      .ok { markdown := { verbosePadding := true }, path := some "/a/ctb.toml" } ∧
    load nested ["b", "a"] none (some { verbosePadding := some false }) =
      .ok { path := some "/a/ctb.toml" } := by
  have isNearest : IsNearest nested ["b", "a"] ["a"] := by
    refine ⟨by simp, by decide, fun closer below longer => ?_⟩
    obtain rfl : closer = ["b", "a"] := below.eq_of_length_le longer
    decide
  have chooses := Chooses.nearest isNearest rfl
  have text : FileSystem.textOf (Text.bytes "[markdown]\nverbose_padding = true\n".toList) =
      .ok "[markdown]\nverbose_padding = true\n" := rfl
  have understood : (Toml.read "[markdown]\nverbose_padding = true\n").bind ofEntries =
      some { markdown := { verbosePadding := true } } := by decide +kernel
  obtain ⟨entries, toml, accepted⟩ := Option.bind_eq_some_iff.mp understood
  have loaded : load nested ["b", "a"] none none =
      .ok { markdown := { verbosePadding := true }, path := some "/a/ctb.toml" } := by
    refine ((load_precedence nested ["b", "a"] none none Toml.read).1 _).mpr ⟨_, chooses, ?_⟩
    refine ⟨rfl, _, _, text, toml, Option.isSome_of_eq_some accepted, fun setting member => ?_⟩
    exact (follows_path member _).mpr ((follows_of_ofEntries accepted).2 setting member)
  obtain ⟨-, overridden, -⟩ :=
    load_precedence nested ["b", "a"] none (some { verbosePadding := some false }) Toml.read
  rw [loaded] at overridden
  exact ⟨loaded, overridden⟩

end Config

end CanonicalMarkdown
