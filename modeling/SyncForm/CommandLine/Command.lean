import SyncForm.CommandLine.Option

/-!
# Commands

The program has two commands: one prints the layout of a form for a source and a target type, the
other checks a job file. `parse` reads a command line; the texts of the help stand here as well.
-/

namespace SyncForm.CommandLine

/-- What the program is asked to do. -/
inductive Command where
  | layout (source target : Option String) (custom : Bool)
  | check (job : String) (catalog : Option String)
  deriving DecidableEq

/-- A command line: a command, if one is given, and how to log. -/
structure Invocation where
  verbose : Bool
  jsonLog : Bool
  logFile : Option String
  command : Option Command
  deriving DecidableEq

/-- A command line that asks for the help of a command, or is not understood. -/
inductive Stop where
  | help (text : String)
  | refused

/-- The options of the program itself. -/
def programGrammar : Grammar :=
  { options := [
      ("-h", .help), ("--help", .help), ("-v", .mark "verbose"), ("--verbose", .mark "verbose"),
      ("--json-log", .mark "json_log"), ("--log-file", .store "log_file")]
    words := 0
    subcommands := true }

/-- The options of the layout command. -/
def layoutGrammar : Grammar :=
  { options := [
      ("-h", .help), ("--help", .help), ("--ds-type", .store "ds_type"),
      ("--dt-type", .store "dt_type"), ("--custom", .mark "custom")]
    words := 0 }

/-- The options of the check command. -/
def checkGrammar : Grammar :=
  { options := [("-h", .help), ("--help", .help), ("--catalog", .store "catalog")]
    words := 1 }

/-- The help of the program. -/
def programHelp : String := String.intercalate "\n" [
  "usage: jobform [-h] [-v] [--json-log] [--log-file LOG_FILE] \x7blayout,check\x7d ...",
  "",
  "Inspect DataX job forms",
  "",
  "positional arguments:",
  "  \x7blayout,check\x7d",
  "    layout             Show the visible fields and spans",
  "    check              Validate a job definition",
  "",
  "options:",
  "  -h, --help           show this help message and exit",
  "  -v, --verbose        Enable verbose logging",
  "  --json-log           Output logs in JSON format (for log aggregation",
  "                       systems)",
  "  --log-file LOG_FILE  Write logs to file (in addition to console)",
  "",
  "Examples:",
  "    # Show which fields a Hive -> MySQL job lays out",
  "    python -m jobform layout --ds-type HIVE --dt-type MYSQL",
  "",
  "    # Validate a job definition against a catalog fixture",
  "    python -m jobform check job.yaml --catalog catalog.yaml",
  "        ",
  ""]

/-- The help of the layout command. -/
def layoutHelp : String := String.intercalate "\n" [
  "usage: jobform layout [-h] [--ds-type DS_TYPE] [--dt-type DT_TYPE] [--custom]",
  "",
  "options:",
  "  -h, --help         show this help message and exit",
  "  --ds-type DS_TYPE  Source datasource type code",
  "  --dt-type DT_TYPE  Target datasource type code",
  "  --custom           Use the custom JSON template",
  ""]

/-- The help of the check command. -/
def checkHelp : String := String.intercalate "\n" [
  "usage: jobform check [-h] [--catalog CATALOG] job",
  "",
  "positional arguments:",
  "  job                YAML file with the job parameters",
  "",
  "options:",
  "  -h, --help         show this help message and exit",
  "  --catalog CATALOG  YAML catalog fixture answering the lookups",
  ""]

/-- Reads a command line with the help that belongs to it. -/
def scanWith (g : Grammar) (help : String) (arguments : List String) : Except Stop Reading :=
  (g.scan arguments).mapError fun
    | .help => .help help
    | .refused => .refused

/-- What was stored under a name. -/
def Reading.value? (r : Reading) (name : String) : Option String :=
  Assoc.valueOf? r.stored name

/-- Whether a mark was set. -/
def Reading.marked (r : Reading) (name : String) : Bool :=
  Assoc.holds r.stored name

/-- The command of a name, read from the arguments behind it, and the arguments not understood. -/
def parseCommand (name : String) (arguments : List String) :
    Except Stop (Command × List String) :=
  match name with
  | "layout" => do
    let r ← scanWith layoutGrammar layoutHelp arguments
    return (.layout (r.value? "ds_type") (r.value? "dt_type") (r.marked "custom"), r.strays)
  | "check" => do
    let r ← scanWith checkGrammar checkHelp arguments
    match r.words with
    | [job] => return (.check job (r.value? "catalog"), r.strays)
    | _ => throw .refused
  | _ => .error .refused

/-- Reads a command line. Arguments that are not understood are refused in the end, when no help was
asked for. -/
def parse (arguments : List String) : Except Stop Invocation := do
  let r ← scanWith programGrammar programHelp arguments
  let invocation (command : Option Command) : Invocation := {
    verbose := r.marked "verbose"
    jsonLog := r.marked "json_log"
    logFile := r.value? "log_file"
    command }
  match r.words with
  | [] => if r.strays.isEmpty then return invocation none else throw .refused
  | name :: _ =>
    let (command, strays) ← parseCommand name r.rest
    if r.strays.isEmpty && strays.isEmpty then return invocation (some command)
    else throw .refused

end SyncForm.CommandLine
