import CanonicalMarkdown.Command.Run
import CanonicalMarkdown.Stream.Events

namespace CanonicalMarkdown.Program

def entryAt? (path : String) : IO (Option FileEntry) := do
  try
    let bytes ← IO.FS.readBinFile path
    return some (.file bytes.toList)
  catch
    | .inappropriateType _ 21 _ => return some .directory
    | _ => return none

def observe (files : FileSystem) : Location → IO FileSystem
  | [] => return files
  | name :: parent => do
    let files ← observe files parent
    match ← entryAt? (FileSystem.absolutePath (name :: parent)) with
    | some entry => return files.put (name :: parent) entry
    | none => return files

def namesFrom (directory : Location) (path : String) : Location :=
  let start := if path.toList.head? = some '/' then [] else directory
  (path.splitOn "/").foldl
    (fun location name =>
      if name = "" || name = "." then location
      else if name = ".." then location.tail
      else name :: location) start

def pathsOf (arguments : List String) : List String :=
  match Command.Invocation.ofArguments arguments with
  | .convert arguments => [arguments.source, arguments.destination] ++ arguments.config.toList
  | _ => []

def relevantLocations (directory : Location) (arguments : List String) : List Location :=
  Config.candidates directory ++ (pathsOf arguments).map (namesFrom directory)

def colorsWanted : IO Bool := do
  let forced := (← IO.getEnv "CLICOLOR_FORCE").any (· ≠ "0")
  let refused := (← IO.getEnv "NO_COLOR").isSome || (← IO.getEnv "CLICOLOR") = some "0"
  let terminal := (← IO.getEnv "TERM").any (· ≠ "dumb")
  return forced || (!refused && terminal && (← (← IO.getStderr).isTty))

partial def readAll (stream : IO.FS.Stream) (read : ByteArray) : IO ByteArray := do
  let more ← stream.read 65536
  if more.isEmpty then return read else readAll stream (read ++ more)

def readEvents (arguments : List String) : IO (List Event) := do
  if (pathsOf arguments).isEmpty then return []
  else
    let some path ← IO.getEnv "MARKDOWN_EVENTS"
      | throw (IO.userError "MARKDOWN_EVENTS names no event stream")
    match Stream.read (← IO.FS.readFile path) with
    | some events => return events
    | none => throw (IO.userError ("no event stream in " ++ path))

def writeChanges (before after : FileSystem) : IO Unit := do
  for (location, entry) in after.entries do
    match entry with
    | .file bytes =>
      if before.find? location ≠ some entry then
        IO.FS.writeBinFile (FileSystem.absolutePath location) ⟨bytes.toArray⟩
    | .directory => pure ()

def run (arguments : List String) : IO UInt32 := do
  let directory := namesFrom [] (← IO.currentDir).toString
  let files ← (relevantLocations directory arguments).foldlM observe {}
  let needsInput := Command.standardStream ∈ pathsOf arguments
  let input ← if needsInput then readAll (← IO.getStdin) .empty else pure .empty
  let events ← readEvents arguments
  let outcome := Command.run {
    files, directory, input := input.toList, reader := fun _ _ => events
    colored := ← colorsWanted } arguments
  writeChanges files outcome.files
  (← IO.getStdout).write ⟨outcome.output.toArray⟩
  (← IO.getStdout).flush
  (← IO.getStderr).putStr outcome.messages
  return outcome.exitCode.toUInt32

end CanonicalMarkdown.Program

def main (arguments : List String) : IO UInt32 := CanonicalMarkdown.Program.run arguments
