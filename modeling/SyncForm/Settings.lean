import SyncForm.Checked
import SyncForm.Json.Reader
import SyncForm.Text.Upper
import SyncForm.Value.Json
import SyncForm.Value.Number

/-!
# Settings

The settings of a form come from three places: arguments, variables of the environment and defaults,
in this order of precedence. `Settings.load` takes the arguments from a project file, leaving out
those whose variable is set. Variables are named after the setting; reading them disregards case,
leaving out arguments does not.
-/

namespace SyncForm

/-- The settings of a form. -/
structure Settings where
  apiBaseUrl : String := "http://localhost:12345/dolphinscheduler"
  apiToken : Option String := none
  lookupTimeout : Option Binary64 := none
  logLevel : String := "INFO"
  logFormat : String := "console"
  logFile : Option String := none
  disabledTypes : List String := []

/-- The variables of the environment, in the order in which they were first set. -/
abbrev Environment := Assoc String

namespace Environment

/-- Removes a variable. -/
def unset (env : Environment) (name : String) : Environment :=
  env.filter (·.1 != name)

/-- The value of a variable, whatever the case of its name; the last of several wins. -/
def lookUp (env : Environment) (name : String) : Option String :=
  (env.reverse.find? fun kv => Text.lowerLatin kv.1 == Text.lowerLatin name).map (·.2)

end Environment

/-- The project file, as it was found. Reading it may fail on the file system, on the grammar of the
file, or on what the grammar lets through: bytes that are no text, or a date that there is not. -/
inductive ProjectFile where
  | absent
  | unread (fault : Fault)
  | content (value : Value)

/-- A project file that does not follow the grammar. -/
def ProjectFile.malformed : ProjectFile :=
  .unread (.stated "YAMLError" "the file is malformed")

namespace Settings

/-- The setting for the address of the catalog service. -/
def baseUrlName : String := "api_base_url"

/-- The setting for the token that the catalog service asks for. -/
def tokenName : String := "api_token"

/-- The setting for the seconds that a lookup may take. -/
def timeoutName : String := "lookup_timeout"

/-- The setting for the level of the log. -/
def levelName : String := "log_level"

/-- The setting for the format of the log. -/
def formatName : String := "log_format"

/-- The setting for the file that the log is also written to. -/
def logFileName : String := "log_file"

/-- The setting for the types that are not offered. -/
def disabledName : String := "disabled_types"

/-- The names of all settings, in order. -/
def names : List String :=
  [baseUrlName, tokenName, timeoutName, levelName, formatName, logFileName, disabledName]

/-- The name of the project file. -/
def projectFile : String := ".jobform.yaml"

/-- The variable of a setting. -/
def variableName (setting : String) : String :=
  "JOBFORM_" ++ setting.map Char.toUpper

/-- The value that the environment gives to a setting; lists are written as JSON there. -/
def fromVariable (env : Environment) (setting : String) : Except Fault Value :=
  match env.lookUp (variableName setting) with
  | none => .ok .null
  | some content =>
    if setting = disabledName then
      match Json.read content.toList with
      | .ok document => .ok (.ofDocument document)
      | .error _ => .error (.unreadableSetting setting)
    else .ok (.text content)

/-- The values that the environment gives; one that is `null` counts as not given. -/
def fromEnvironment (env : Environment) : Except Fault (Assoc Value) := do
  let given ← names.mapM fun setting => (fromVariable env setting).map fun v => (setting, v)
  return given.filter fun (_, v) => match v with
    | .null => false
    | _ => true

open Checked in
/-- A positive number. -/
def positive (v : Value) : Checked Binary64 := do
  let x ← real v
  if Binary64.zero.lt x then return x else refuse .notPositive

open Checked in
/-- A word of a list, in the case of the list. -/
def oneOf (setting : String) (words : List String) (fold : String → String) (v : Value) :
    Checked String := do
  let word := fold (← text v)
  if words.contains word then return word
  else
    refuse (.rejected
      (setting ++ " must be one of: " ++ (Value.list (words.map .text)).quoted))

/-- The levels of the log. -/
def levels : List String := ["DEBUG", "INFO", "WARNING", "ERROR", "CRITICAL"]

/-- The formats of the log. -/
def formats : List String := ["json", "console"]

open Checked in
/-- The settings that some given values make, each of them checked; names that are no settings are
refused. -/
def ofGiven (given : Assoc Value) (unknown : List String) : Checked Settings := do
  let usual : Settings := {}
  let refuseAll : Checked Unit :=
    if unknown.isEmpty then .ok ()
    else .error (unknown.map fun name => { path := [.field name], complaint := .unexpected })
  let (url, token, timeout, level, format, file, disabled, ()) ←
    (optional given [baseUrlName] usual.apiBaseUrl text).both
      ((optional given [tokenName] usual.apiToken (nullable text)).both
        ((optional given [timeoutName] usual.lookupTimeout (nullable positive)).both
          ((optional given [levelName] usual.logLevel (oneOf levelName levels Text.upper)).both
            ((optional given [formatName] usual.logFormat
                (oneOf formatName formats Text.lowerLatin)).both
              ((optional given [logFileName] usual.logFile (nullable text)).both
                ((optional given [disabledName] usual.disabledTypes (list text)).both
                  refuseAll))))))
  return {
    apiBaseUrl := url, apiToken := token, lookupTimeout := timeout, logLevel := level
    logFormat := format, logFile := file, disabledTypes := disabled.map Text.upper }

/-- The settings that arguments and an environment make; arguments win. -/
def ofArguments (arguments : Assoc Value) (env : Environment) : Except Fault Settings := do
  let given := Assoc.putAll (← fromEnvironment env) arguments
  (ofGiven given ((Assoc.keys arguments).filter (!names.contains ·))).mapError .refused

/-- A table given as a list of pairs; pairs whose name is no text name no setting. -/
def ofPairs (done : Assoc Value) : Nat → List Value → Except Fault (Assoc Value)
  | _, [] => .ok done
  | i, pair :: rest => do
    match ← pair.toSequence.mapError fun _ => .notPair i with
    | [.text name, v] => ofPairs (Assoc.put done name v) (i + 1) rest
    | [name, _] =>
      if name.isKey then ofPairs done (i + 1) rest else throw (.notHashable name.kind)
    | parts => throw (.badPair i parts.length)

/-- A table, given as an object or a list of pairs. -/
def tableOf : Value → Except Fault (Assoc Value)
  | .object members => .ok members
  | v => do ofPairs [] 0 (← v.toSequence)

/-- The section of a project file that holds the settings. -/
def sectionOf (content : Value) : Except Fault (Assoc Value) :=
  match content.orElse (.object []) with
  | .object members =>
    tableOf (((Assoc.valueOf? members "jobform").getD .null).orElse (.object []))
  | v => .error (.lacks v.kind "get")

/-- The families of faults on which a project file is disregarded. A fault of the file system is of
the first, one of the grammar of the second; those on values of another kind are of the others. -/
def disregardedFamilies : List String := ["OSError", "YAMLError", "AttributeError", "TypeError"]

/-- Whether a project file with a fault is disregarded. -/
def isDisregarded (fault : Fault) : Bool :=
  disregardedFamilies.contains fault.family

/-- What a project file holds for the settings, or the fault on which reading it ends. -/
def readProject : ProjectFile → Except Fault (Assoc Value)
  | .absent => .ok []
  | .unread fault => .error fault
  | .content v => sectionOf v

/-- The values that a project file gives; one that is disregarded gives none. -/
def fromProject (file : ProjectFile) : Except Fault (Assoc Value) :=
  match readProject file with
  | .ok members => .ok members
  | .error fault => if isDisregarded fault then .ok [] else .error fault

/-- The settings that a project file and an environment make. -/
def load (file : ProjectFile) (env : Environment) : Except Fault Settings := do
  let overrides := (← fromProject file).filter fun (setting, _) =>
    names.contains setting && !Assoc.holds env (variableName setting)
  ofArguments overrides env

/-- The settings in use: those held already, unless there are none or they are to be loaded anew. -/
def current (held : Option Settings) (reload : Bool) (file : ProjectFile) (env : Environment) :
    Except Fault Settings :=
  match held, reload with
  | some settings, false => .ok settings
  | _, _ => load file env

end Settings

end SyncForm
