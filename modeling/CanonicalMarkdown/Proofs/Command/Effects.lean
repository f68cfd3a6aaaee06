import CanonicalMarkdown.Command.Run
import CanonicalMarkdown.Proofs.ConversionSafety
import CanonicalMarkdown.Proofs.Delivery
import CanonicalMarkdown.Proofs.Files.Creation
import CanonicalMarkdown.Proofs.Settings

namespace CanonicalMarkdown

theorem FileSystem.textOf_eq_ok_iff {bytes : List UInt8} {text : String} :
    textOf bytes = .ok text ↔ Text.bytes text.toList = bytes := by
  have encoded (text : String) : text.toByteArray.data.toList = Text.bytes text.toList := by
    rw [← String.utf8Encode_toList]
    simp [List.utf8Encode, Text.bytes]
  unfold textOf String.fromUTF8?
  constructor
  · intro decoded
    split at decoded
    · rename_i other found
      split at found
      · rw [← Except.ok.inj decoded, ← Option.some.inj found, ← encoded]
        rfl
      · contradiction
    · contradiction
  · rintro rfl
    rw [← encoded, Array.toArray_toList, dif_pos text.isValidUTF8]
    rfl

theorem Renderer.render_of_renderTo {renderer : Renderer} {document : Document}
    (calm : (renderer.renderTo document {}).error = none) :
    ∃ text, renderer.render document = .ok text ∧
      (renderer.renderTo document {}).received = Text.bytes text.toList := by
  unfold renderTo at calm ⊢
  unfold render
  have delivered := @Sink.deliver_unlimited {} rfl
  cases ran : renderer.run document with
  | done page | stopped page =>
    exact ⟨page.text, rfl, congrArg Delivery.received (delivered page none)⟩
  | failed page error =>
    rw [ran] at calm
    simp [delivered page (some error)] at calm

theorem Renderer.error_renderTo_of_render {renderer : Renderer} {document : Document} {text : String}
    (rendered : renderer.render document = .ok text) : (renderer.renderTo document {}).error = none := by
  unfold render at rendered
  unfold renderTo
  have delivered := @Sink.deliver_unlimited {} rfl
  cases ran : renderer.run document with
  | done page | stopped page => exact congrArg Delivery.error (delivered page none)
  | failed page error =>
    rw [ran] at rendered
    contradiction

namespace Command

variable {surroundings : Surroundings} {arguments : Arguments} {renderer : Renderer}
  {document : Document} {messages closing : String}

/-- The source of a run holds the text, in the form in which it is stored. -/
def Reads (surroundings : Surroundings) (path text : String) : Prop :=
  if path = "-" then surroundings.input = Text.bytes text.toList
  else ∃ location, surroundings.files.existing surroundings.directory path =
    .ok (location, .file (Text.bytes text.toList))

/-- What the settings of a file and the flags ask for. Punctuation is made in HTML only, and a flag
    can switch the padding counter on, but not off. -/
structure Asks (config : Config) (flags : List Flag) (mode : Mode) (options : Options) : Prop where
  mode : mode = .html ↔ .html ∈ flags
  headingAttributes : options.reader.headingAttributes = config.reader.headingAttributes
  tables : options.reader.tables = config.reader.tables
  definitionLists : options.reader.definitionLists = config.reader.definitionLists
  linkify : options.reader.linkify = config.reader.linkify
  smartPunctuation : options.reader.smartPunctuation = true ↔
    .html ∈ flags ∧ config.html.smartPunctuation = true
  headingIds : options.headingIds = config.html.headingIds
  markExternalLinks : options.markExternalLinks = config.html.externalLinks
  verbosePadding : options.verbosePadding = true ↔
    .verbosePadding ∈ flags ∨ config.markdown.verbosePadding = true

/-- The source as it is before the run, converted as the settings and the flags ask for. -/
def Yields (surroundings : Surroundings) (arguments : Arguments) (output : String) : Prop :=
  ∃ config text mode options conversion,
    Config.load surroundings.files surroundings.directory arguments.config none = .ok config ∧
    Reads surroundings arguments.source text ∧ Asks config arguments.flags mode options ∧
    Conversion.ofOptions mode options = .ok conversion ∧
    conversion.convert (.ofString text) (surroundings.reader (.ofString text) options.reader) =
      .ok output

theorem sourceText_eq_ok_iff {path text : String} :
    sourceText surroundings path = .ok text ↔ Reads surroundings path text := by
  unfold sourceText standardStream Reads FileSystem.readText
  split
  · rw [FileSystem.textOf_eq_ok_iff, eq_comm]
  · cases found : surroundings.files.existing surroundings.directory path with
    | error error => simp
    | ok place =>
      obtain ⟨location, entry⟩ := place
      cases entry with
      | directory => simp
      | file bytes =>
        rw [FileSystem.textOf_eq_ok_iff, eq_comm]
        simp

theorem Asks.unique {config : Config} {flags : List Flag} {mode other : Mode}
    {options others : Options} (first : Asks config flags mode options)
    (second : Asks config flags other others) : mode = other ∧ options = others := by
  have modes : mode = other := by
    have same := first.mode.trans second.mode.symm
    cases mode <;> cases other <;> simp_all
  have punctuation := Bool.eq_iff_iff.mpr
    (first.smartPunctuation.trans second.smartPunctuation.symm)
  have padding := Bool.eq_iff_iff.mpr (first.verbosePadding.trans second.verbosePadding.symm)
  have reader : options.reader = others.reader := by
    rw [ReaderOptions.mk.injEq]
    exact ⟨first.headingAttributes.trans second.headingAttributes.symm,
      first.tables.trans second.tables.symm,
      first.definitionLists.trans second.definitionLists.symm,
      first.linkify.trans second.linkify.symm, punctuation⟩
  refine ⟨modes, ?_⟩
  rw [Options.mk.injEq]
  exact ⟨reader, first.headingIds.trans second.headingIds.symm,
    first.markExternalLinks.trans second.markExternalLinks.symm, padding⟩

theorem override_overrides (config : Config) (arguments : Arguments) :
    config.override arguments.overrides = { config with
      markdown.verbosePadding :=
        arguments.has .verbosePadding || config.markdown.verbosePadding } := by
  unfold Config.override Arguments.overrides
  cases arguments.has .verbosePadding <;> rfl

theorem asks_options (config : Config) (arguments : Arguments) :
    Asks config arguments.flags arguments.mode
      ((config.override arguments.overrides).options arguments.mode) := by
  rw [override_overrides]
  constructor
  case mode => simp [Arguments.mode, Arguments.has]
  case smartPunctuation => simp [Config.options, Arguments.mode, Arguments.has]
  case verbosePadding => simp [Config.options, Arguments.has]
  all_goals rfl

theorem options_of_ofOptions {mode : Mode} {options : Options} {conversion : Conversion}
    (made : Conversion.ofOptions mode options = .ok conversion) : conversion.options = options := by
  unfold Conversion.ofOptions at made
  split at made
  · contradiction
  · rw [← Except.ok.inj made]

theorem load_overrides_eq_ok_iff {config : Config} :
    Config.load surroundings.files surroundings.directory arguments.config
        (some arguments.overrides) = .ok config ↔
      ∃ loaded, Config.load surroundings.files surroundings.directory arguments.config none =
        .ok loaded ∧ config = loaded.override arguments.overrides := by
  rw [Config.load_none, Config.load]
  cases Config.fileOrDefaults surroundings.files surroundings.directory arguments.config with
  | error error => simp [Except.map]
  | ok loaded => simp [Except.map, eq_comm]

structure Prepares (surroundings : Surroundings) (arguments : Arguments) (config : Config)
    (conversion : Conversion) (text : String) : Prop where
  load : Config.load surroundings.files surroundings.directory arguments.config
    (some arguments.overrides) = .ok config
  made : Conversion.ofOptions arguments.mode (config.options arguments.mode) = .ok conversion
  read : sourceText surroundings arguments.source = .ok text

def converted (surroundings : Surroundings) (conversion : Conversion) (text : String) :
    Except RenderError String :=
  conversion.convert (.ofString text)
    (surroundings.reader (.ofString text) conversion.options.reader)

theorem yields_iff {output : String} : Yields surroundings arguments output ↔
    ∃ config conversion text, Prepares surroundings arguments config conversion text ∧
      converted surroundings conversion text = .ok output := by
  constructor
  · rintro ⟨loaded, text, mode, options, conversion, load, read, asks, made, output⟩
    obtain ⟨rfl, rfl⟩ := asks.unique (asks_options loaded arguments)
    refine ⟨_, conversion, text, ⟨load_overrides_eq_ok_iff.mpr ⟨loaded, load, rfl⟩, made,
      sourceText_eq_ok_iff.mpr read⟩, ?_⟩
    rw [converted, options_of_ofOptions made]
    exact output
  · rintro ⟨config, conversion, text, ⟨load, made, read⟩, output⟩
    obtain ⟨loaded, loads, rfl⟩ := load_overrides_eq_ok_iff.mp load
    rw [converted, options_of_ofOptions made] at output
    exact ⟨loaded, text, _, _, conversion, loads, sourceText_eq_ok_iff.mp read,
      asks_options loaded arguments, made, output⟩

theorem Yields.unique {output other : String} (first : Yields surroundings arguments output)
    (second : Yields surroundings arguments other) : output = other := by
  obtain ⟨config, conversion, text, ⟨load, made, read⟩, output⟩ := yields_iff.mp first
  obtain ⟨config', conversion', text', ⟨load', made', read'⟩, output'⟩ := yields_iff.mp second
  obtain rfl := Except.ok.inj (load.symm.trans load')
  obtain rfl := Except.ok.inj (made.symm.trans made')
  obtain rfl := Except.ok.inj (read.symm.trans read')
  exact Except.ok.inj (output.symm.trans output')

structure Outcome.Prints (outcome : Outcome) (before : FileSystem) (text : String) : Prop where
  output : outcome.output = Text.bytes text.toList
  files : outcome.files = before

structure Outcome.Writes (outcome : Outcome) (before : FileSystem) (directory : Location)
    (path text : String) : Prop where
  output : outcome.output = []
  files : ∃ location,
    outcome.files.existing directory path = .ok (location, .file (Text.bytes text.toList)) ∧
    ∀ other, other ≠ location → outcome.files.find? other = before.find? other

structure Outcome.Refuses (outcome : Outcome) (before : FileSystem) : Prop where
  exitCode : outcome.exitCode = 1
  output : outcome.output = []
  files : outcome.files = before

theorem writeOutput_prints
    (succeeds : (writeOutput surroundings renderer document messages closing).exitCode = 0) :
    ∃ text, renderer.render document = .ok text ∧
      (writeOutput surroundings renderer document messages closing).Prints surroundings.files
        text := by
  unfold writeOutput at succeeds ⊢
  dsimp only at succeeds ⊢
  split at succeeds
  · contradiction
  · rename_i calm
    obtain ⟨text, rendered, received⟩ := Renderer.render_of_renderTo calm
    exact ⟨text, rendered, received, rfl⟩

theorem writeFile_writes {path : String}
    (succeeds : (writeFile surroundings path renderer document messages closing).exitCode = 0) :
    ∃ text, renderer.render document = .ok text ∧
      (writeFile surroundings path renderer document messages closing).Writes surroundings.files
        surroundings.directory path text := by
  unfold writeFile at succeeds ⊢
  dsimp only at succeeds ⊢
  split at succeeds
  · contradiction
  · rename_i location made created
    split at succeeds
    · contradiction
    · rename_i calm
      obtain ⟨text, rendered, received⟩ := Renderer.render_of_renderTo calm
      obtain ⟨rfl, leads⟩ := FileSystem.create_eq_ok created
      refine ⟨text, rendered, rfl, location, ?_, ?_⟩
      · rw [FileSystem.put_put, received]
        exact leads _
      · intro other different
        rw [FileSystem.put_put]
        exact FileSystem.find?_put_of_ne _ _ different

theorem convertSource_of_success {conversion : Conversion} {text : String}
    (succeeds : (convertSource surroundings arguments conversion text messages).exitCode = 0) :
    ∃ output,
      converted surroundings conversion text = .ok output ∧
      if arguments.destination = "-" then
        (convertSource surroundings arguments conversion text messages).Prints surroundings.files
          output
      else
        (convertSource surroundings arguments conversion text messages).Writes surroundings.files
          surroundings.directory arguments.destination output := by
  unfold convertSource standardStream at succeeds ⊢
  dsimp only at succeeds ⊢
  split at succeeds
  · rename_i printed
    simp only [if_pos printed]
    exact writeOutput_prints succeeds
  · rename_i written
    simp only [if_neg written]
    exact writeFile_writes succeeds

theorem convert_cases (surroundings : Surroundings) (arguments : Arguments) :
    (convert surroundings arguments).Refuses surroundings.files ∨
      ∃ config conversion text loaded,
        Prepares surroundings arguments config conversion text ∧
        convert surroundings arguments =
          convertSource surroundings arguments conversion text loaded := by
  unfold convert
  dsimp only
  split
  · exact .inl ⟨rfl, rfl, rfl⟩
  · rename_i config load
    split
    · exact .inl ⟨rfl, rfl, rfl⟩
    · rename_i conversion made
      split
      · exact .inl ⟨rfl, rfl, rfl⟩
      · rename_i text read
        exact .inr ⟨config, conversion, text, _, ⟨load, made, read⟩, rfl⟩

theorem exitCode_convert {output : String} (yields : Yields surroundings arguments output)
    (makes : arguments.destination = "-" ∨
      ∃ created, surroundings.files.create surroundings.directory arguments.destination =
        .ok created) :
    (convert surroundings arguments).exitCode = 0 := by
  obtain ⟨config, conversion, text, ⟨load, made, read⟩, converted⟩ := yields_iff.mp yields
  have calm := Renderer.error_renderTo_of_render converted
  simp only [convert, load, made, read, convertSource]
  split
  · simp only [writeOutput, calm]
  · rename_i toFile
    obtain ⟨⟨location, emptied⟩, created⟩ := makes.resolve_left toFile
    simp only [writeFile, created, calm]

/-- A run that cannot load its settings or read its source changes no file and prints nothing. A run
    that succeeds prints the converted source and changes no file, or changes the destination alone,
    which then holds the converted source, whatever the destination was before. -/
theorem convert_touches_destination_only (surroundings : Surroundings) (arguments : Arguments) :
    ((∃ error, Config.load surroundings.files surroundings.directory arguments.config none =
          .error error) ∨
        (∀ text, ¬ Reads surroundings arguments.source text) →
      (convert surroundings arguments).Refuses surroundings.files) ∧
    ((convert surroundings arguments).exitCode = 0 →
      ∃ output, Yields surroundings arguments output ∧
        (∀ other, Yields surroundings arguments other → other = output) ∧
        if arguments.destination = "-" then
          (convert surroundings arguments).Prints surroundings.files output
        else
          (convert surroundings arguments).Writes surroundings.files surroundings.directory
            arguments.destination output) := by
  rcases convert_cases surroundings arguments with
    refuses | ⟨config, conversion, text, loaded, prepares, same⟩
  · refine ⟨fun _ => refuses, fun succeeds => ?_⟩
    rw [refuses.exitCode] at succeeds
    contradiction
  · constructor
    · obtain ⟨settings, load, -⟩ := load_overrides_eq_ok_iff.mp prepares.load
      rintro (⟨error, unloaded⟩ | unread)
      · rw [load] at unloaded
        contradiction
      · exact absurd (sourceText_eq_ok_iff.mp prepares.read) (unread text)
    · rw [same]
      intro succeeds
      obtain ⟨output, converted, touched⟩ := convertSource_of_success succeeds
      have yields := yields_iff.mpr ⟨config, conversion, text, prepares, converted⟩
      exact ⟨output, yields, fun other others => others.unique yields, touched⟩

def sharedFile : Surroundings where
  files := ⟨[(["c"], .file (Text.bytes "[html]\nheading_ids = false\n# x\n".toList))]⟩
  reader _ _ := [⟨.start .paragraph, ⟨0, 27⟩⟩, ⟨.text "[", ⟨0, 1⟩⟩, ⟨.text "html", ⟨1, 5⟩⟩,
    ⟨.text "]", ⟨5, 6⟩⟩, ⟨.softBreak, ⟨6, 7⟩⟩, ⟨.text "heading_ids = false", ⟨7, 26⟩⟩,
    ⟨.close, ⟨0, 27⟩⟩, ⟨.start (.heading 1 none [] []), ⟨27, 31⟩⟩, ⟨.text "x", ⟨29, 30⟩⟩,
    ⟨.close, ⟨27, 31⟩⟩]

theorem names_sharedFile : "c".splitOn "/" = ["c"] :=
  FileSystem.splitOn_of_next_atEnd rfl (by decide) rfl

theorem yields_sharedFile : Yields sharedFile ⟨"c", "c", [.html], some "c"⟩
    "<p>[html]\nheading_ids = false</p>\n<h1>x</h1>\n" := by
  have there : sharedFile.files.existing [] "c" =
      .ok (["c"], .file (Text.bytes "[html]\nheading_ids = false\n# x\n".toList)) := by
    simp only [FileSystem.existing, FileSystem.locate, FileSystem.route, names_sharedFile]
    rfl
  have text : FileSystem.textOf (Text.bytes "[html]\nheading_ids = false\n# x\n".toList) =
      .ok "[html]\nheading_ids = false\n# x\n" := FileSystem.textOf_eq_ok_iff.mpr rfl
  have toml : (Toml.read "[html]\nheading_ids = false\n# x\n").bind Config.ofEntries =
      some { html := { headingIds := false } } := by decide +kernel
  have load : Config.load sharedFile.files [] (some "c") none =
      .ok { html := { headingIds := false }, path := some "c" } := by
    simp only [Config.load_none, Config.fileOrDefaults, FileSystem.exists?, FileSystem.readText,
      there, text, Config.ofFile, Config.ofText, toml]
    rfl
  let options : Options :=
    { reader := { smartPunctuation := true }, headingIds := false }
  have asks : Asks { html := { headingIds := false }, path := some "c" } [.html] .html options := by
    constructor <;> decide
  refine ⟨_, _, .html, options, _, load, ⟨["c"], there⟩, asks, Conversion.ofOptions_html _, ?_⟩
  exact RenderError.ok_of_toOption (by decide +kernel)

theorem convert_touches_sharedFile :
    ((∀ text, ¬ Reads sharedFile "d" text) ∧
      (convert sharedFile ⟨"d", "c", [], some "c"⟩).Refuses sharedFile.files) ∧
    (convert sharedFile ⟨"c", "c", [.html], some "c"⟩).exitCode = 0 ∧
      (convert sharedFile ⟨"c", "c", [.html], some "c"⟩).Writes sharedFile.files [] "c"
        "<p>[html]\nheading_ids = false</p>\n<h1>x</h1>\n" := by
  have missing : ∀ text, ¬ Reads sharedFile "d" text := by
    have others : "d".splitOn "/" = ["d"] := FileSystem.splitOn_of_next_atEnd rfl (by decide) rfl
    have absent : sharedFile.files.existing [] "d" = .error .notFound := by
      simp only [FileSystem.existing, FileSystem.locate, FileSystem.route, others]
      rfl
    rintro text ⟨location, found⟩
    rw [show sharedFile.files.existing sharedFile.directory "d" = _ from absent] at found
    contradiction
  have makes : sharedFile.files.create [] "c" = .ok (["c"], ⟨[(["c"], .file [])]⟩) := by
    simp only [FileSystem.create, FileSystem.route, names_sharedFile]
    rfl
  have succeeds := exitCode_convert yields_sharedFile (.inr ⟨_, makes⟩)
  refine ⟨⟨missing, ?_⟩, succeeds, ?_⟩
  · exact (convert_touches_destination_only sharedFile ⟨"d", "c", [], some "c"⟩).1 (.inr missing)
  · obtain ⟨output, -, only, writes⟩ :=
      (convert_touches_destination_only sharedFile ⟨"c", "c", [.html], some "c"⟩).2 succeeds
    rw [only _ yields_sharedFile]
    exact writes

end Command

end CanonicalMarkdown
