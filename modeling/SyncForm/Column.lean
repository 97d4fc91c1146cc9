import SyncForm.Value.Datum

/-!
# Column records

A column record is one row of the mapping editor. `Column.ofValue` reads it from job parameters,
under either spelling of its member names, and `Column.toValue` writes the spelling the task runner
consumes. The payload is JSON text: `ColumnOf.normalise` rewrites a readable one in its indented
form and clears an unreadable one.

In a form a record holds values. What is done with one record alone is defined for records of any
data, and so for documents, in which a payload may be any list of code points.
-/

namespace SyncForm

/-- The data type of records that the editor creates. -/
def Column.customType : String := "custom"

namespace ColumnOf

variable {α : Type}

/-- A member under its first spelling or its second one, or a usual value. -/
def pick (member? : String → Option α) (first second : String) (usual : α) : α :=
  (member? first).getD ((member? second).getD usual)

variable [Datum α]

/-- A datum, or another one where it does not count as given. -/
def orUsual (v usual : α) : α :=
  if Datum.isTrue v then v else usual

/-- The record that some members describe. A position that is not given or not true is zero; a data
type that is `null` is empty. -/
def describe (member? : String → Option α) : Except Fault (ColumnOf α) := do
  let blank : α := Datum.ofString ""
  let dataType := pick member? "dataType" "data_type" (Datum.ofString Column.customType)
  let position := pick member? "index" "ordinal_hint" (Datum.ofInt 0)
  let ordinal ← Datum.toInteger (orUsual position (Datum.ofInt 0))
  return {
    ordinal
    name := orUsual (pick member? "columnName" "name" blank) blank
    dataType := if Datum.isNull dataType then blank else dataType
    connected := Datum.isTrue (pick member? "enable" "connected" (Datum.ofBool false))
    payload := orUsual (pick member? "json" "raw_json" blank) blank }

/-- The members of a record as the task runner consumes it. -/
def members (c : ColumnOf α) : Assoc α := [
  ("index", Datum.ofInt c.ordinal), ("columnName", c.name), ("dataType", c.dataType),
  ("enable", Datum.ofBool c.connected), ("json", c.payload)]

/-- The document that a payload spells, if it is readable; a payload that is not text is a fault. -/
def readPayload (payload : α) : Except Fault (Option Json.Document) :=
  match Datum.text? payload with
  | some text =>
    match Json.readCodes text with
    | .ok document => .ok (some document)
    | .error _ => .ok none
  | none => .error (.notJsonText (Datum.kind payload))

/-- Whether the payload is given and readable. -/
def hasPayload (c : ColumnOf α) : Except Fault Bool :=
  if Datum.isTrue c.payload then (readPayload c.payload).map (·.isSome) else .ok false

/-- Rewrites the payload in indented form, clearing an unreadable one; the flag says whether it was
readable or not given. -/
def normalise (c : ColumnOf α) : Except Fault (Bool × ColumnOf α) :=
  if Datum.isTrue c.payload then do
    match ← readPayload c.payload with
    | some document => return (true, { c with payload := Datum.ofText document.pretty })
    | none => return (false, { c with payload := Datum.ofString "" })
  else .ok (true, c)

/-- The record that a document describes; only an object describes one. -/
def ofDocument : Json.Document → Except Fault (ColumnOf Json.Document)
  | .object members => describe fun name => members.lookup (Json.codesOf name)
  | d => .error (.notColumn d.kind)

/-- A record of documents as the task runner consumes it. -/
def toDocument (c : ColumnOf Json.Document) : Json.Document :=
  .object (Json.named c.members)

end ColumnOf

namespace Column

/-- A row without a name or a payload, not connected. -/
def empty : Column :=
  { ordinal := 0, name := .text "", dataType := .text customType, connected := false
    payload := .text "" }

/-- The record that an object describes. -/
def ofMembers (members : Assoc Value) : Except Fault Column :=
  ColumnOf.describe (Assoc.valueOf? members)

/-- The position of a described record decides whether it is read; its other fields are those under
the names of their members. -/
theorem ofMembers_eq_map (members : Assoc Value) :
    let pick := ColumnOf.pick (Assoc.valueOf? members)
    ofMembers members = ((pick "index" "ordinal_hint" (.int 0)).orElse (.int 0)).toInteger.map
      fun ordinal =>
        { ordinal
          name := (pick "columnName" "name" (.text "")).orElse (.text "")
          dataType :=
            match pick "dataType" "data_type" (.text customType) with
            | .null => .text ""
            | v => v
          connected := (pick "enable" "connected" (.bool false)).isTrue
          payload := (pick "json" "raw_json" (.text "")).orElse (.text "") } := by
  intro pick
  have hnull (v : Value) : (if Datum.isNull v then .text "" else v) =
      match v with
      | .null => .text ""
      | v => v := by
    cases v <;> rfl
  change Except.bind
    (Value.toInteger ((pick "index" "ordinal_hint" (.int 0)).orElse (.int 0))) _ = _
  cases ((pick "index" "ordinal_hint" (.int 0)).orElse (.int 0)).toInteger with
  | error fault => rfl
  | ok ordinal =>
    change Except.ok _ = Except.ok _
    congr 2
    exact hnull _

/-- The record that a value describes; only an object describes one. -/
def ofValue : Value → Except Fault Column
  | .object members => ofMembers members
  | v => .error (.notColumn v.kind)

/-- A record as the task runner consumes it. -/
def toValue (c : Column) : Value :=
  .object c.members

end Column

end SyncForm
