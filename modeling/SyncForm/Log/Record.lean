import SyncForm.Log.Pattern
import SyncForm.Log.Timestamp

/-!
# Log records

A log record says when, where and how urgently something was reported; its message is a pattern with
arguments. Any other attribute may be attached to it. `LogRecord.toLine` writes a record as one JSON
object on one line: the attributes that identify a form stand in a member of their own, the others
in another one.

Whatever a record holds is a document, and a line is a list of code points.
-/

namespace SyncForm

open Json (Document codesOf)

/-- An error that a record carries, by its family and its text. -/
structure Failure where
  family : String
  text : List Nat

/-- A log record. Its own attributes may hold any document, since an attribute attached under their
name replaces them; what replaces the failure is `attached`. -/
structure LogRecord where
  logger : Document
  level : Document
  path : Document
  line : Document
  function : Document := .null
  message : Document
  arguments : Arguments := .row []
  created : Document
  failure : Option Failure := none
  attached : Document := .null
  attributes : List (List Nat × Document) := []

namespace LogRecord

/-- The attributes that every record has. -/
def ownAttributes : List (List Nat) := [
  "name", "msg", "args", "levelname", "levelno", "pathname", "filename", "module", "exc_info",
  "exc_text", "stack_info", "lineno", "funcName", "created", "msecs", "relativeCreated", "thread",
  "threadName", "processName", "process"].map codesOf

/-- The attributes that none attached may be shown under. -/
def reservedAttributes : List (List Nat) :=
  ownAttributes ++ ["message", "asctime"].map codesOf

/-- The attributes that identify a form. -/
def contextAttributes : List (List Nat) :=
  ["form_id", "task", "field", "trigger"].map codesOf

/-- The levels with a name. -/
def levelNames : List (Int × String) := [
  (50, "CRITICAL"), (40, "ERROR"), (30, "WARNING"), (20, "INFO"), (10, "DEBUG"), (0, "NOTSET")]

/-- The name of a level. -/
def levelName (level : Document) : List Nat :=
  match levelNames.find? fun (number, _) => (Value.ofDocument level).equals (.int number) with
  | some (_, name) => codesOf name
  | none => codesOf "Level " ++ level.plain

/-- The arguments of a message; a table that is the only argument is taken by its members. -/
def argumentsOf : List Document → Arguments
  | [.object (m :: ms)] => .single (.object (m :: ms))
  | documents => .row documents

/-- What an attribute replaces of what a record holds of its own, by the name of the attribute. -/
def replacements : List (List Nat × (LogRecord → Document → LogRecord)) := [
  (codesOf "name", fun r d => { r with logger := d }),
  (codesOf "levelname", fun r d => { r with level := d }),
  (codesOf "pathname", fun r d => { r with path := d }),
  (codesOf "lineno", fun r d => { r with line := d }),
  (codesOf "funcName", fun r d => { r with function := d }),
  (codesOf "msg", fun r d => { r with message := d }),
  (codesOf "args", fun r d => { r with arguments := if d.isTrue then .single d else .row [] }),
  (codesOf "created", fun r d => { r with created := d }),
  (codesOf "exc_info", fun r d => { r with failure := none, attached := d })]

/-- Attaches an attribute; one of the record's own is replaced. -/
def attach (r : LogRecord) (name : List Nat) (d : Document) : LogRecord :=
  match replacements.lookup name with
  | some replace => replace r d
  | none => { r with attributes := Json.putMember r.attributes name d }

/-- The moment of a record as text. -/
def timestamp (r : LogRecord) : Except Fault String := do
  (← Timestamp.ofValue (.ofDocument r.created)).render

/-- The message with its arguments; without arguments it is no pattern. An attribute called
`getMessage` stands in the way of it. -/
def text (r : LogRecord) : Except Fault (List Nat) :=
  match r.attributes.lookup (codesOf "getMessage") with
  | some d => .error (.stated "TypeError" ("'" ++ d.kind ++ "' object is not callable"))
  | none =>
    match r.arguments with
    | .row [] => .ok r.message.plain
    | arguments => Pattern.fill r.message.plain arguments

/-- The text of an error behind its family; that of a missing key is quoted. -/
def Failure.text (f : Failure) : List Nat :=
  let text := if f.family = "KeyError" then codesOf (Text.quoteCodes f.text) else f.text
  if text.isEmpty then codesOf f.family else codesOf (f.family ++ ": ") ++ text

/-- The text of a document that is taken for an error, its traceback third and the error itself
second. Where both are null there is no error; no other document is one. -/
def attachedText : Document → Except Fault (List Nat)
  | .array (_ :: .null :: .null :: _) => .ok (codesOf "NoneType: None")
  | .array (_ :: error :: .null :: _) => .error (.lacks error.kind "__suppress_context__")
  | .array (_ :: _ :: traceback :: _) => .error (.lacks traceback.kind "tb_frame")
  | .array _ => .error .noSuchIndex
  | .text text =>
    .error (if text.length < 3 then .stated "IndexError" "string index out of range"
      else .lacks "str" "tb_frame")
  | .object _ => .error (.missingPosition 2)
  | d => .error (.stated "TypeError" ("'" ++ d.kind ++ "' object is not subscriptable"))

/-- The text of the error that a record carries, if it carries one. -/
def failureText (r : LogRecord) : Except Fault (Option (List Nat)) :=
  match r.failure with
  | some failure => .ok (some (Failure.text failure))
  | none => if r.attached.isTrue then (attachedText r.attached).map some else .ok none

/-- The attributes attached to a record that are shown. -/
def shown (r : LogRecord) (excluded : List (List Nat)) : List (List Nat × Document) :=
  r.attributes.filter fun (name, _) =>
    !reservedAttributes.contains name && !excluded.contains name

/-- A member of an object, if there is something in it. -/
def membersOf (name : String) (members : List (List Nat × Document)) :
    List (List Nat × Document) :=
  if members.isEmpty then [] else [(codesOf name, .object members)]

/-- A record as an object. -/
def toDocument (r : LogRecord) (excluded : List (List Nat)) : Except Fault Document := do
  let timestamp ← r.timestamp
  let message ← r.text
  let exception := (← r.failureText).toList.map fun text =>
    (codesOf "exception", Document.text text)
  let (context, others) :=
    (r.shown excluded).partition fun (name, _) => contextAttributes.contains name
  return .object ([
    (codesOf "timestamp", .text (codesOf timestamp)), (codesOf "level", r.level),
    (codesOf "logger", r.logger), (codesOf "message", .text message),
    (codesOf "source", .object [
      (codesOf "file", r.path), (codesOf "line", r.line), (codesOf "function", r.function)])] ++
    exception ++ membersOf "form" context ++ membersOf "extra" others)

/-- A record as one line of JSON. -/
def toLine (r : LogRecord) (excluded : List (List Nat)) : Except Fault (List Nat) :=
  (r.toDocument excluded).map (·.line)

end LogRecord

end SyncForm
