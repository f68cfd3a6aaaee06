import CanonicalMarkdown.Command.Arguments
import CanonicalMarkdown.Command.Style
import CanonicalMarkdown.Config
import CanonicalMarkdown.Conversion
import CanonicalMarkdown.Dump

namespace CanonicalMarkdown.Command

abbrev Reader := Source → ReaderOptions → List Event

structure Surroundings where
  files : FileSystem
  directory : Location := []
  input : List UInt8 := []
  reader : Reader
  colored : Bool := false

structure Outcome where
  exitCode : Nat := 0
  output : List UInt8 := []
  messages : String := ""
  files : FileSystem

def standardStream : String := "-"

namespace Arguments

def has (arguments : Arguments) (flag : Flag) : Bool := flag ∈ arguments.flags

def mode (arguments : Arguments) : Mode := if arguments.has .html then .html else .markdown

/-- The padding counter can be switched on from the command line, but not off. -/
def overrides (arguments : Arguments) : Overrides :=
  { verbosePadding := if arguments.has .verbosePadding then some true else none }

def logLine (arguments : Arguments) (text : String) : String :=
  if arguments.has .verbose then "INFO ctb::commands::md2md: " ++ text ++ "\n" else ""

end Arguments

def modeName : Mode → String
  | .markdown => "Markdown"
  | .html => "Html"

def failed (surroundings : Surroundings) (files : FileSystem) (output : List UInt8)
    (messages error : String) : Outcome where
  exitCode := 1
  output
  messages :=
    messages ++ Style.failure.paint surroundings.colored ("Error: " ++ error) ++ "\n"
  files

def sourceText (surroundings : Surroundings) (path : String) : Except FileError String :=
  if path = standardStream then FileSystem.textOf surroundings.input
  else surroundings.files.readText surroundings.directory path

def writeOutput (surroundings : Surroundings) (renderer : Renderer) (document : Document)
    (messages closing : String) : Outcome :=
  let delivery := renderer.renderTo document {}
  match delivery.error with
  | some error =>
    failed surroundings surroundings.files delivery.received messages error.message
  | none =>
    { output := delivery.received, messages := messages ++ closing, files := surroundings.files }

def wroteLine (colored : Bool) (path : String) (size : Nat) : String :=
  Style.success.paint colored ("Wrote " ++ path ++ " (" ++ toString size ++ " bytes)") ++ "\n"

def writeFile (surroundings : Surroundings) (path : String) (renderer : Renderer)
    (document : Document) (messages closing : String) : Outcome :=
  match surroundings.files.create surroundings.directory path with
  | .error error => failed surroundings surroundings.files [] messages error.message
  | .ok (location, files) =>
    let delivery := renderer.renderTo document {}
    let written := files.put location (.file delivery.received)
    match delivery.error with
    | some error => failed surroundings written [] messages error.message
    | none =>
      let wrote := wroteLine surroundings.colored path delivery.received.length
      { messages := messages ++ wrote ++ closing, files := written }

def convertSource (surroundings : Surroundings) (arguments : Arguments) (conversion : Conversion)
    (text messages : String) : Outcome :=
  let source := Source.ofString text
  let events := surroundings.reader source conversion.options.reader
  let document := conversion.parse source events
  let tree :=
    if arguments.has .dumpTree then paintDump surroundings.colored document.dump else ""
  let closing := arguments.logLine ("Converted document mode=" ++ modeName conversion.mode
    ++ " bytes=" ++ toString source.size)
  if arguments.destination = standardStream then
    writeOutput surroundings conversion.renderer document (messages ++ tree) closing
  else
    writeFile surroundings arguments.destination conversion.renderer document (messages ++ tree)
      closing

/-- Loads the configuration, reads the source and converts it. Each of these is done only after
    the one before succeeded. -/
def convert (surroundings : Surroundings) (arguments : Arguments) : Outcome :=
  let fail := failed surroundings surroundings.files []
  match Config.load surroundings.files surroundings.directory arguments.config
      (some arguments.overrides) with
  | .error error => fail "" error.message
  | .ok config =>
    let loaded := config.path.elim "" fun path =>
      arguments.logLine ("Loaded configuration path=" ++ path)
    match Conversion.ofOptions arguments.mode (config.options arguments.mode) with
    | .error error => fail loaded error.message
    | .ok conversion =>
      match sourceText surroundings arguments.source with
      | .error error =>
        fail loaded ("cannot read " ++ arguments.source ++ ": " ++ error.message)
      | .ok text => convertSource surroundings arguments conversion text loaded

def printed (surroundings : Surroundings) (text : String) : Outcome where
  output := Text.bytes text.toList
  files := surroundings.files

def run (surroundings : Surroundings) (arguments : List String) : Outcome :=
  match Invocation.ofArguments arguments with
  | .convert arguments => convert surroundings arguments
  | .version => printed surroundings versionText
  | .help text => printed surroundings text
  | .misuse =>
    { exitCode := 2, messages := "error: usage: ctb md2md [OPTIONS] <SRC> <DST>\n"
      files := surroundings.files }

end CanonicalMarkdown.Command
