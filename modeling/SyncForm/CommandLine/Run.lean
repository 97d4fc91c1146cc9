import SyncForm.CommandLine.Command
import SyncForm.Log.Basic
import SyncForm.Session
import SyncForm.Settings
import SyncForm.Template

/-!
# Running commands

A command is run against a `World`: the environment, the project file and the contents of files. Its
result is what it prints and the code it ends with; a fault that it does not report on its own
escapes.
-/

namespace SyncForm.CommandLine

/-- What a command looks at. -/
structure World where
  environment : Environment
  project : ProjectFile
  files : Assoc Value

/-- How a command ends: it returns a code, or leaves early with one. -/
inductive Code where
  | returned (code : Nat)
  | left (code : Nat)
  deriving DecidableEq

/-- What a command prints and how it ends. -/
structure Outcome where
  code : Code
  text : String

/-- The outcome of a command that prints some lines. -/
def Outcome.ofLines (code : Nat) (lines : List String) : Outcome :=
  { code := .returned code, text := String.join (lines.map (· ++ "\n")) }

/-- The parts of a path between its slashes. -/
def pathParts : List Char → List Char → List (List Char)
  | current, [] => [current.reverse]
  | current, c :: rest =>
    if c = '/' then current.reverse :: pathParts [] rest else pathParts (c :: current) rest

/-- What a path starts with: nothing, one slash or exactly two. -/
def pathRoot : List Char → String
  | ['/', '/'] => "//"
  | '/' :: '/' :: c :: _ => if c = '/' then "/" else "//"
  | '/' :: _ => "/"
  | _ => ""

/-- A path without empty parts and dots. -/
def normalPath (path : String) : String :=
  let parts := (pathParts [] path.toList).filter fun p => !p.isEmpty && p != ['.']
  let body := pathRoot path.toList ++ String.intercalate "/" (parts.map String.ofList)
  if body.isEmpty then "." else body

/-- Why a file cannot be read. -/
inductive FileFault where
  | notFound (path : String)
  | failed (fault : Fault)

/-- The content of a file. -/
def World.read (w : World) (path : String) : Except FileFault Value :=
  if path = "." ∨ path = ".." ∨ path = "/" ∨ path = "//" then
    .error (.failed (.stated "IsADirectoryError" ("[Errno 21] Is a directory: '" ++ path ++ "'")))
  else
    match Assoc.valueOf? w.files path with
    | some v => .ok v
    | none => .error (.notFound path)

/-- A text followed by blanks up to a width. -/
def padRight (width : Nat) (text : String) : String :=
  text ++ String.ofList (List.replicate (width - text.length) ' ')

/-- A row of the layout table. -/
def layoutRow (field kind span : String) : String :=
  "  " ++ padRight 32 field ++ "  " ++ padRight 18 kind ++ "  " ++ span

/-- A line of dashes. -/
def rule (width : Nat) : String :=
  String.ofList (List.replicate width '-')

/-- A type code as the heading shows it. -/
def shownCode (code : String) : String :=
  if code.isEmpty then "-" else code

/-- Prints the fields that a form lays out. -/
def runLayout (w : World) (source target : Option String) (custom : Bool) :
    Except Fault Outcome := do
  let source := Text.upper (source.getD "")
  let target := Text.upper (target.getD "")
  let settings ← Settings.ofArguments [] w.environment
  let values := Value.object [
    (Keys.customConfig, .bool custom), (Keys.sourceType, .text source),
    (Keys.targetType, .text target)]
  let form ← Form.ofValues values (Template.taskForm settings.disabledTypes)
  let shown ← form.visibleFields
  let rows ← shown.mapM fun d =>
    (form.resolver.facet d.key).map fun facet =>
      layoutRow d.key d.kind.name (toString facet.weight)
  let mode := if custom then "custom template" else "standard"
  return Outcome.ofLines 0 ([
    "Layout: " ++ mode ++ ", source=" ++ shownCode source ++ ", target=" ++ shownCode target,
    "", layoutRow "Field" "Kind" "Span", layoutRow (rule 32) (rule 18) (rule 4)] ++ rows)

/-- The lines about lookups that failed on loading. -/
def lookupWarnings (outcomes : List LookupOutcome) : List String :=
  outcomes.filterMap fun o =>
    match o.error with
    | some (.report r) =>
      match r.subject with
      | .lookup _ _ cause =>
        some ("  [WARNING] lookup " ++ o.trigger ++ ": " ++ (cause.map Fault.text).getD "None")
      | _ => none
    | _ => none

/-- The lines about the fields at fault and the code of a check. -/
def checkVerdict (job : String) (issues : List (String × String)) : Nat × List String :=
  if issues.isEmpty then (0, [job ++ ": OK"])
  else
    (1, (job ++ ": " ++ toString issues.length ++ " invalid field(s)") ::
      issues.map fun (key, message) => "  [ERROR] " ++ key ++ ": " ++ message)

/-- Loads and validates a form. -/
def checkForm (job : String) (form : Form) (fixture : Fixture) (settings : Settings) :
    Except Fault Outcome := do
  let session : Session := { form, fixture, timeout := settings.lookupTimeout, gated := false }
  let (session, loaded) := session.load true
  let outcomes ← loaded
  let (_, validated) := session.form.validate
  let (code, lines) := checkVerdict job (← validated)
  return Outcome.ofLines code (lookupWarnings outcomes ++ lines)

/-- The issues that a report on job parameters lists. -/
def issuesOf? : Fault → Option (List String)
  | .report r =>
    match r.subject with
    | .validation issues => some issues
    | _ => none
  | _ => none

/-- Checks the parameters of a job. -/
def checkValues (job : String) (values : Value) (fixture : Fixture) (settings : Settings) :
    Except Fault Outcome :=
  match Form.ofValues values (Template.taskForm settings.disabledTypes) with
  | .ok form => checkForm job form fixture settings
  | .error fault =>
    match issuesOf? fault with
    | some issues =>
      .ok (Outcome.ofLines 1
        ((job ++ ": malformed job parameters") :: issues.map ("  [ERROR] " ++ ·)))
    | none => .error fault

/-- The fixture of a catalog file; without a file, the fixture that knows no instance. -/
def fixtureOf (w : World) : Option String → Except FileFault Fixture
  | none => .ok Fixture.empty
  | some path => do
    let content ← w.read (normalPath path)
    (Fixture.ofValue (content.orElse (.object []))).mapError FileFault.failed

/-- Checks a job file. -/
def runCheck (w : World) (job : String) (catalog : Option String) (settings : Settings) :
    Except FileFault Outcome := do
  let job := normalPath job
  match (← w.read job).orElse (.object []) with
  | .object members =>
    let fixture ← fixtureOf w catalog
    (checkValues job (.object members) fixture settings).mapError FileFault.failed
  | _ =>
    return Outcome.ofLines 1 ["Error: " ++ job ++ " must contain a mapping of job parameters"]

/-- A command ended by a fault: what it prints about files and reports; other faults escape. -/
def failedOutcome : FileFault → Except Fault Outcome
  | .notFound path => .ok (Outcome.ofLines 1 ["Error: File not found: " ++ path])
  | .failed (.report r) => .ok (Outcome.ofLines 1 ["Error: " ++ r.render])
  | .failed fault => .error fault

/-- Runs a command. -/
def runCommand (w : World) (command : Command) (settings : Settings) : Except Fault Outcome :=
  let result :=
    match command with
    | .layout source target custom => (runLayout w source target custom).mapError FileFault.failed
    | .check job catalog => runCheck w job catalog settings
  match result with
  | .ok outcome => .ok outcome
  | .error fault => failedOutcome fault

/-- Runs a command line. -/
def run (w : World) (arguments : List String) : Except Fault Outcome :=
  match parse arguments with
  | .error (.help text) => .ok { code := .left 0, text }
  | .error .refused => .ok { code := .left 2, text := "" }
  | .ok invocation =>
    match invocation.command with
    | none => .ok { code := .returned 1, text := programHelp }
    | some command => do
      let settings ← Settings.load w.project w.environment
      let level := if invocation.verbose then "DEBUG" else settings.logLevel
      let _ ← LogSetup.ofLevel level (invocation.jsonLog || settings.logFormat == "json")
        (invocation.logFile.orElse fun _ => settings.logFile)
      runCommand w command settings

end SyncForm.CommandLine
