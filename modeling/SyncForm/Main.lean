import SyncForm.CommandLine.Run
import SyncForm.Json.Reader

/-!
# The program

Reads what a command looks at and runs it. Job files and catalogs are read as JSON.
-/

namespace SyncForm.Program

/-- The content of a file, if it is there and can be parsed. -/
def readFile? (path : String) : IO (Option Value) := do
  try
    let content ← IO.FS.readFile path
    match Json.read content.toList with
    | .ok document => return some (.ofDocument document)
    | .error _ => return none
  catch _ => return none

/-- The project file of the working directory. -/
def readProject : IO ProjectFile := do
  try
    let bytes ← IO.FS.readBinFile Settings.projectFile
    match String.fromUTF8? bytes with
    | none => return .unread (.stated "UnicodeDecodeError" "the project file is no UTF-8 text")
    | some content =>
      match Json.read content.toList with
      | .ok document => return .content (.ofDocument document)
      | .error .malformed => return .malformed
      | .error (.tooManyDigits count) => return .unread (.tooManyDigits count)
  catch error =>
    match error with
    | .noFileOrDirectory _ _ _ => return .absent
    | error => return .unread (.stated "OSError" error.toString)

/-- The variables of the settings that are set. -/
def readEnvironment : IO Environment := do
  let found ← Settings.names.mapM fun setting => do
    let name := Settings.variableName setting
    return (← IO.getEnv name).map fun value => (name, value)
  return found.filterMap id

/-- The files that a command line names. -/
def namedFiles (arguments : List String) : List String :=
  match CommandLine.parse arguments with
  | .ok invocation =>
    match invocation.command with
    | some (.check job catalog) => (job :: catalog.toList).map CommandLine.normalPath
    | _ => []
  | .error _ => []

/-- The contents of the files that a command line names. -/
def readFiles (arguments : List String) : IO (Assoc Value) := do
  let found ← (namedFiles arguments).mapM fun path => do
    return (← readFile? path).map fun v => (path, v)
  return found.filterMap id

end SyncForm.Program

open SyncForm SyncForm.Program in
/-- Runs the command line; a fault that escapes goes to the error output. -/
def main (arguments : List String) : IO UInt32 := do
  let world : CommandLine.World := {
    environment := ← readEnvironment
    project := ← readProject
    files := ← readFiles arguments }
  match CommandLine.run world arguments with
  | .ok outcome =>
    IO.print outcome.text
    match outcome.code with
    | .returned code => return code.toUInt32
    | .left code => return code.toUInt32
  | .error fault =>
    IO.eprintln (fault.family ++ ": " ++ fault.text)
    return 1
