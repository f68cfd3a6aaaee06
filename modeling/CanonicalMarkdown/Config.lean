import CanonicalMarkdown.Files.FileSystem
import CanonicalMarkdown.Options
import CanonicalMarkdown.Toml.Document

namespace CanonicalMarkdown

structure ReaderSettings where
  headingAttributes : Bool := true
  tables : Bool := true
  definitionLists : Bool := true
  linkify : Bool := true
deriving DecidableEq, Repr, Inhabited

structure HtmlSettings where
  smartPunctuation : Bool := true
  headingIds : Bool := true
  externalLinks : Bool := true
deriving DecidableEq, Repr, Inhabited

structure MarkdownSettings where
  verbosePadding : Bool := false
deriving DecidableEq, Repr, Inhabited

structure Config where
  reader : ReaderSettings := {}
  html : HtmlSettings := {}
  markdown : MarkdownSettings := {}
  path : Option String := none
deriving DecidableEq, Repr, Inhabited

/-- Settings from the command line; those that are given override the file. -/
structure Overrides where
  verbosePadding : Option Bool := none
deriving DecidableEq, Repr, Inhabited

inductive ConfigError
  | notFound (path : String)
  | unreadable (error : FileError)
  | malformed
deriving DecidableEq, Repr, Inhabited

def ConfigError.message : ConfigError → String
  | .notFound path => "Configuration file not found: " ++ path
  | .unreadable error => "I/O error: " ++ error.message
  | .malformed => "TOML parse error: not a configuration"

def sectionEntries (names : List String) : Toml.Value → Option Toml.Entries
  | .table _ entries => if entries.all fun entry => entry.1 ∈ names then some entries else none
  | .array items | .tables items => some (names.zip items)
  | _ => none

def sectionOf (name : String) (names : List String) (entries : Toml.Entries) :
    Option Toml.Entries :=
  (entries.lookup name).elim (some []) (sectionEntries names)

def flagOf (name : String) (fallback : Bool) (entries : Toml.Entries) : Option Bool :=
  match entries.lookup name with
  | none => some fallback
  | some (.boolean value) => some value
  | some _ => none

namespace Config

def readerNames : List String := ["heading_attributes", "tables", "definition_lists", "linkify"]

def htmlNames : List String := ["smart_punctuation", "heading_ids", "external_links"]

def markdownNames : List String := ["verbose_padding"]

def readerOf (entries : Toml.Entries) : Option ReaderSettings := do
  return {
    headingAttributes := ← flagOf "heading_attributes" true entries
    tables := ← flagOf "tables" true entries
    definitionLists := ← flagOf "definition_lists" true entries
    linkify := ← flagOf "linkify" true entries }

def htmlOf (entries : Toml.Entries) : Option HtmlSettings := do
  return {
    smartPunctuation := ← flagOf "smart_punctuation" true entries
    headingIds := ← flagOf "heading_ids" true entries
    externalLinks := ← flagOf "external_links" true entries }

def markdownOf (entries : Toml.Entries) : Option MarkdownSettings := do
  return { verbosePadding := ← flagOf "verbose_padding" false entries }

def ofEntries (entries : Toml.Entries) : Option Config :=
  if entries.all fun entry => entry.1 ∈ ["parser", "html", "markdown"] then do
    return {
      reader := ← readerOf (← sectionOf "parser" readerNames entries)
      html := ← htmlOf (← sectionOf "html" htmlNames entries)
      markdown := ← markdownOf (← sectionOf "markdown" markdownNames entries) }
  else none

/-- How the text of a configuration file is read; one that is malformed gives nothing. -/
abbrev FileReader := String → Option Toml.Entries

def ofText (text : String) (read : FileReader := Toml.read) : Except ConfigError Config :=
  match (read text).bind ofEntries with
  | some config => .ok config
  | none => .error .malformed

def override (config : Config) (overrides : Overrides) : Config :=
  match overrides.verbosePadding with
  | some verbosePadding => { config with markdown := { verbosePadding } }
  | none => config

def fileName : String := "ctb.toml"

def candidates : Location → List Location
  | [] => [[fileName]]
  | name :: parent => (fileName :: name :: parent) :: candidates parent

def nearest (files : FileSystem) (directory : Location) : Option Location :=
  (candidates directory).find? files.isFile

def ofFile (path : String) (content : Except FileError String) (read : FileReader := Toml.read) :
    Except ConfigError Config :=
  match content with
  | .error error => .error (.unreadable error)
  | .ok text => (ofText text read).map fun config => { config with path := some path }

def textAt (files : FileSystem) (location : Location) : Except FileError String :=
  match files.find? location with
  | some (.file bytes) => FileSystem.textOf bytes
  | some .directory => .error .isDirectory
  | none => .error .notFound

/-- The configuration before overrides: of the file at a given path, or else of the discovered
    one, or else the defaults. -/
def fileOrDefaults (files : FileSystem) (directory : Location) (path : Option String)
    (read : FileReader := Toml.read) : Except ConfigError Config :=
  match path with
  | some path =>
    if files.exists? directory path then ofFile path (files.readText directory path) read
    else .error (.notFound path)
  | none =>
    match nearest files directory with
    | some location => ofFile (FileSystem.absolutePath location) (textAt files location) read
    | none => .ok {}

def load (files : FileSystem) (directory : Location) (path : Option String)
    (overrides : Option Overrides) (read : FileReader := Toml.read) : Except ConfigError Config :=
  (fileOrDefaults files directory path read).map fun config =>
    overrides.elim config config.override

/-- The conversion that the settings ask for. Markdown keeps its punctuation as it is written. -/
def options (config : Config) (mode : Mode) : Options where
  reader := {
    headingAttributes := config.reader.headingAttributes
    tables := config.reader.tables
    definitionLists := config.reader.definitionLists
    linkify := config.reader.linkify
    smartPunctuation := mode = .html && config.html.smartPunctuation }
  headingIds := config.html.headingIds
  markExternalLinks := config.html.externalLinks
  verbosePadding := config.markdown.verbosePadding

end Config

end CanonicalMarkdown
