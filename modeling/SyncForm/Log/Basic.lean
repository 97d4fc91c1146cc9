import SyncForm.Log.Record
import SyncForm.Text.Upper

/-!
# Loggers

A form logger stamps every record with a context, which a single call may override. `LogSetup` is
the configuration of the log as a whole: its level and where and how records are written.
-/

namespace SyncForm

/-- A logger with the attributes that it attaches to every record. -/
structure FormLogger where
  context : List (List Nat × Json.Document)

namespace FormLogger

/-- A logger with a context; the name of the logger is none of it. -/
def ofContext (context : List (List Nat × Json.Document)) : Except Fault FormLogger :=
  if (context.lookup (Json.codesOf "name")).isSome then
    .error (.stated "TypeError" "get_form_logger() got multiple values for argument 'name'")
  else .ok { context }

/-- Adds to the context. -/
def setContext (l : FormLogger) (context : List (List Nat × Json.Document)) : FormLogger :=
  { l with context := Json.mergeMembers l.context context }

/-- Empties the context. -/
def clearContext (l : FormLogger) : FormLogger :=
  { l with context := [] }

/-- The attributes of a record: the context, overridden by those of the call. None of them may be an
attribute that every record has. -/
def attributes (l : FormLogger) (extra : List (List Nat × Json.Document)) :
    Except Fault (List (List Nat × Json.Document)) :=
  let merged := Json.mergeMembers l.context extra
  match merged.find? fun (name, _) => LogRecord.reservedAttributes.contains name with
  | some (name, _) => .error (.reservedAttribute (Json.textOf name))
  | none => .ok merged

end FormLogger

/-- The configuration of the log. -/
structure LogSetup where
  level : Int
  json : Bool
  toFile : Bool

namespace LogSetup

/-- The words for the levels. -/
def levelWords : List (String × Int) := [
  ("CRITICAL", 50), ("FATAL", 50), ("ERROR", 40), ("WARN", 30), ("WARNING", 30), ("INFO", 20),
  ("DEBUG", 10), ("NOTSET", 0)]

/-- The configuration for a level by its word, in any case. -/
def ofLevel (word : String) (json : Bool) (file : Option String) : Except Fault LogSetup :=
  match Assoc.valueOf? levelWords (Text.upper word) with
  | some level => .ok { level, json, toFile := file.any (!·.isEmpty) }
  | none => .error (.unknownLevel word)

/-- The level of the loggers of libraries, which are never heard below a warning. -/
def quietLevel (s : LogSetup) : Int :=
  max s.level 30

/-- The loggers of libraries. -/
def quietLoggers : List String := ["httpx", "httpcore", "asyncio"]

/-- What writes records, and the form in which it writes them. -/
def handlers (s : LogSetup) : List (String × String) :=
  let form := if s.json then "JSONFormatter" else "Formatter"
  ("StreamHandler", form) :: if s.toFile then [("FileHandler", form)] else []

end LogSetup

end SyncForm
