namespace CanonicalMarkdown.Command

inductive Flag
  | html | dumpTree | verbosePadding | verbose
deriving DecidableEq, Repr, Inhabited

structure Arguments where
  source : String
  destination : String
  flags : List Flag := []
  config : Option String := none
deriving DecidableEq, Repr, Inhabited

inductive Invocation
  | convert (arguments : Arguments)
  | version
  | help (text : String)
  | misuse
deriving DecidableEq, Repr, Inhabited

inductive Stop
  | help | misuse
deriving DecidableEq, Repr, Inhabited

/-- The arguments read so far; the paths newest first. -/
structure Given where
  flags : List Flag := []
  config : Option String := none
  paths : List String := []
deriving DecidableEq, Repr, Inhabited

namespace Given

def addFlag (given : Given) (flag : Flag) : Except Stop Given :=
  if flag ∈ given.flags then .error .misuse else .ok { given with flags := flag :: given.flags }

def setConfig (given : Given) (path : String) : Except Stop Given :=
  if path.isEmpty || given.config.isSome then .error .misuse
  else .ok { given with config := some path }

def addPath (given : Given) (path : String) : Except Stop Given :=
  if path.isEmpty || 2 ≤ given.paths.length then .error .misuse
  else .ok { given with paths := path :: given.paths }

def complete (given : Given) : Except Stop Arguments :=
  match given.paths with
  | [destination, source] => .ok ⟨source, destination, given.flags, given.config⟩
  | _ => .error .misuse

end Given

abbrev AfterOption := Except Stop (Given × Bool)

def complete (given : Except Stop Given) : AfterOption := given.map fun given => (given, false)

def readLetters (given : Given) : List Char → AfterOption
  | [] => .ok (given, false)
  | 'v' :: rest =>
    match given.addFlag .verbose with
    | .ok given => readLetters given rest
    | .error stop => .error stop
  | ['c'] => .ok (given, true)
  | 'c' :: '=' :: value => complete (given.setConfig (String.ofList value))
  | 'c' :: value => complete (given.setConfig (String.ofList value))
  | 'h' :: _ => .error .help
  | _ => .error .misuse

def longFlag? : String → Option Flag
  | "md2html" => some .html
  | "dump-ast" => some .dumpTree
  | "dumpAST" => some .dumpTree
  | "verbose-padding" => some .verbosePadding
  | "verbose" => some .verbose
  | _ => none

def readNamed (given : Given) (name : String) (value : Option String) : AfterOption :=
  match longFlag? name, value with
  | some flag, none => complete (given.addFlag flag)
  | some _, some _ => .error .misuse
  | none, some value => if name = "config" then complete (given.setConfig value) else .error .misuse
  | none, none =>
    if name = "config" then .ok (given, true)
    else if name = "help" then .error .help
    else .error .misuse

def readLong (given : Given) (option : List Char) : AfterOption :=
  let name := String.ofList (option.takeWhile (· ≠ '='))
  match option.dropWhile (· ≠ '=') with
  | '=' :: value => readNamed given name (some (String.ofList value))
  | _ => readNamed given name none

def readArgument (given : Given) (argument : String) : AfterOption :=
  match argument.toList with
  | '-' :: '-' :: option => readLong given option
  | '-' :: letter :: letters => readLetters given (letter :: letters)
  | _ => complete (given.addPath argument)

def isValue (argument : String) : Bool :=
  argument = "-" || argument.toList.head? ≠ some '-'

def readArguments (given : Given) : List String → Except Stop Given
  | [] => .ok given
  | argument :: rest =>
    if argument = "--" then rest.foldlM Given.addPath given
    else
      match readArgument given argument, rest with
      | .error stop, _ => .error stop
      | .ok (given, false), rest => readArguments given rest
      | .ok (_, true), [] => .error .misuse
      | .ok (given, true), value :: rest =>
        if isValue value then
          match given.setConfig value with
          | .ok given => readArguments given rest
          | .error stop => .error stop
        else .error .misuse

def textOfLines (lines : List String) : String := String.join (lines.map (· ++ "\n"))

def programHelp : String := textOfLines [
  "Canonical Markdown round-trip and HTML conversion - CLI",
  "",
  "Usage: ctb <COMMAND>",
  "",
  "Commands:",
  "  md2md  Convert Markdown to canonical Markdown (or HTML with --md2html)",
  "  help   Print this message or the help of the given subcommand(s)",
  "",
  "Options:",
  "  -h, --help     Print help",
  "  -V, --version  Print version"]

def convertHelp : String := textOfLines [
  "Convert Markdown to canonical Markdown (or HTML with --md2html)",
  "",
  "Usage: ctb md2md [OPTIONS] <SRC> <DST>",
  "",
  "Arguments:",
  "  <SRC>  Source Markdown file, `-` for stdin",
  "  <DST>  Destination file, `-` for stdout",
  "",
  "Options:",
  "      --md2html          Render HTML instead of Markdown",
  "      --dump-ast         Dump the document tree to stderr",
  "      --verbose-padding  Prefix padding with a running counter (overrides config)",
  "  -c, --config <CONFIG>  Path to configuration file (default: auto-discover ctb.toml)",
  "  -v, --verbose          Enable verbose output",
  "  -h, --help             Print help"]

def versionText : String := "ctb 0.1.0\n"

def readConvert (arguments : List String) : Invocation :=
  match (readArguments {} arguments).bind Given.complete with
  | .ok arguments => .convert arguments
  | .error .help => .help convertHelp
  | .error .misuse => .misuse

def readHelp : List String → Invocation
  | [] | ["help"] => .help programHelp
  | ["md2md"] => .help convertHelp
  | _ => .misuse

/-- Letters in front of the subcommand: the first one decides. -/
def readProgramOption (option : String) : Invocation :=
  match option.toList with
  | '-' :: 'V' :: _ => .version
  | '-' :: 'h' :: _ => .help programHelp
  | _ =>
    if option = "--version" then .version
    else if option = "--help" then .help programHelp
    else .misuse

def Invocation.ofArguments : List String → Invocation
  | [] => .misuse
  | "md2md" :: rest => readConvert rest
  | "help" :: rest => readHelp rest
  | option :: _ => readProgramOption option

end CanonicalMarkdown.Command
