import SyncForm.Column
import SyncForm.Datasource
import SyncForm.Journal
import SyncForm.Keys
import SyncForm.Model.Basic

/-!
# The mapping editor

The editor shows two lists of column records, both held by the model. Connections are positional:
the records at one position of both lists are connected when both carry the flag, so an operation
that moves a record resets the flags it would carry to another partner. An index out of range
changes nothing. A list that the model holds as something else reads as empty, and reading it stores
the empty list.

An operation on a list with an entry that is no record may fail after a part of its work; an `Edit`
therefore holds the model reached beside the result.
-/

namespace SyncForm

/-- The model key of a side. -/
def Side.key : Side → String
  | source => Keys.sourceColumns
  | target => Keys.targetColumns

/-- The side of a name. -/
def Side.ofValue (word : Value) : Except Fault Side :=
  if word.isText "source" then .ok .source
  else if word.isText "target" then .ok .target
  else .error (.notAmong word "Side")

/-- The direction of a move. -/
inductive Direction where
  | up
  | down
  deriving DecidableEq

/-- The direction of a name. -/
def Direction.ofValue (word : Value) : Except Fault Direction :=
  if word.isText "up" then .ok .up
  else if word.isText "down" then .ok .down
  else .error (.notAmong word "Direction")

/-- The record that an entry of a column list is; `field` names what is asked of it. -/
def Value.asColumn (field : String) : Value → Except Fault Column
  | .column c => .ok c
  | v => .error (.lacks v.kind field)

/-- The outcome of an operation of the editor: its result and the model reached. -/
structure Edit (α : Type) where
  model : Model
  result : Except Fault α
  events : List Event := []

namespace Mapping

/-- The entries of a side. -/
def items (m : Model) (side : Side) : List Value :=
  match m.get side.key with
  | .list items => items
  | _ => []

/-- Stores the empty list on a side that holds something else. -/
def repair (m : Model) (side : Side) : Model :=
  match m.get side.key with
  | .list _ => m
  | _ => m.clear side.key (.list [])

/-- Stores an empty list wherever a side holds something else. -/
def repairBoth (m : Model) : Model :=
  repair (repair m .source) .target

/-- Replaces the entries of a side, leaving its source. -/
def store (m : Model) (side : Side) (entries : List Value) : Model :=
  m.replace side.key (.list entries)

/-- The position that an index means in a list, if it is in range. -/
def position? (entries : List Value) (index : Int) : Option Nat :=
  if 0 ≤ index ∧ index < entries.length then some index.toNat else none

/-- Sets the flag of the record at a position of a side. -/
def setFlag (m : Model) (side : Side) (i : Nat) (on : Bool) : Except Fault Model :=
  match (items m side)[i]? with
  | none => .ok m
  | some entry => do
    let c ← entry.asColumn "connected"
    return store m side ((items m side).set i (.column { c with connected := on }))

/-- Sets several flags in order; the model reached stays when one fails. -/
def setFlags (m : Model) (on : Bool) : List (Side × Nat) → Model × Except Fault Unit
  | [] => (m, .ok ())
  | (side, i) :: rest =>
    match setFlag m side i on with
    | .ok m => setFlags m on rest
    | .error fault => (m, .error fault)

/-- Appends an empty record to a side. -/
def add (m : Model) (side : Side) : Edit Value :=
  let m := repair m side
  let m := (store m side (items m side ++ [.column Column.empty])).touch side.key
  { model := m, result := .ok (.column Column.empty) }

/-- Removes the record at an index, severing the connection through its position; the records behind
it move up and pair with the partner one position earlier. -/
def remove (m : Model) (side : Side) (index : Int) : Edit (Option Value) :=
  let m := repair m side
  match position? (items m side) index with
  | none => { model := m, result := .ok none }
  | some i =>
    let (m, flagged) := setFlags (repairBoth m) false [(.source, i), (.target, i)]
    match flagged with
    | .error fault => { model := m, result := .error fault }
    | .ok () =>
      { model := (store m side ((items m side).eraseIdx i)).touch side.key
        result := .ok (items m side)[i]? }

/-- The two entries at given positions exchanged. -/
def swap {α : Type} (entries : List α) (i j : Nat) : List α :=
  match entries[i]?, entries[j]? with
  | some a, some b => (entries.set i b).set j a
  | _, _ => entries

/-- Exchanges a record with its neighbour, disconnecting both; at the ends nothing moves. -/
def move (m : Model) (side : Side) (index : Int) (direction : Value) : Edit Bool :=
  let m := repair m side
  match Direction.ofValue direction with
  | .error fault => { model := m, result := .error fault }
  | .ok direction =>
    let other := if direction = .up then index - 1 else index + 1
    match position? (items m side) index, position? (items m side) other with
    | some i, some j =>
      let (m, flagged) := setFlags m false [(side, i), (side, j)]
      match flagged with
      | .error fault => { model := m, result := .error fault }
      | .ok () =>
        { model := (store m side (swap (items m side) i j)).touch side.key, result := .ok true }
    | _, _ => { model := m, result := .ok false }

/-- Connects or disconnects the records at an index of both lists. -/
def connect (m : Model) (index : Int) (on : Bool) : Edit Bool :=
  let m := repairBoth m
  match position? (items m .source) index, position? (items m .target) index with
  | some i, some j =>
    let (m, flagged) := setFlags m on [(.source, i), (.target, j)]
    { model := m, result := flagged.map fun _ => true }
  | _, _ => { model := m, result := .ok false }

/-- The number of positions that both lists have. -/
def overlap (m : Model) : Nat :=
  min (items m .source).length (items m .target).length

/-- Connects or disconnects every position that both lists have; the result is their number. -/
def connectAll (m : Model) (on : Bool) : Edit Nat :=
  let m := repairBoth m
  let count := overlap m
  let (m, flagged) :=
    setFlags m on ((List.range count).flatMap fun i => [(.source, i), (.target, i)])
  { model := m, result := flagged.map fun _ => count }

/-- A number of new records. -/
def blanks (n : Nat) : List Value :=
  List.replicate n (.column Column.empty)

/-- Whether the target of a model takes free-form structured records. -/
def isSingleSink (m : Model) : Bool :=
  Datasource.isSingleSink (m.get Keys.targetType)

/-- Grows the source list up to the length of the target list and, where the target takes free-form
records, the target list up to the length of the source list. The result is the number of records
appended. -/
def reconcile (m : Model) (singleSink : Bool) : Edit Nat :=
  let m := repairBoth m
  let source := items m .source
  let target := items m .target
  let source' := source ++ blanks (target.length - source.length)
  let target' := if singleSink then target ++ blanks (source'.length - target.length) else target
  let added := source'.length - source.length + (target'.length - target.length)
  if added = 0 then { model := m, result := .ok 0 }
  else
    { model := store (store m .source source') .target target'
      result := .ok added
      events := [.grew source'.length target'.length added] }

/-- A record with a new name, if one is given. -/
def rename (name : Option Value) (entry : Value) : Except Fault Value :=
  match name with
  | none => .ok entry
  | some name => do
    let c ← entry.asColumn "name"
    return .column { c with name }

/-- Edits the record at an index. A payload is rewritten in its indented form; an unreadable one is
cleared and the result is `false`, as it is for an index out of range. -/
def update (m : Model) (side : Side) (index : Int) (name payload : Option Value) : Edit Bool :=
  let m := repair m side
  match position? (items m side) index with
  | none => { model := m, result := .ok false }
  | some i =>
    let put (m : Model) (entry : Value) := store m side ((items m side).set i entry)
    match rename name ((items m side)[i]?.getD .null) with
    | .error fault => { model := m, result := .error fault }
    | .ok entry =>
      let m := put m entry
      match payload with
      | none => { model := m.touch side.key, result := .ok true }
      | some payload =>
        match entry.asColumn "raw_json" with
        | .error fault => { model := m, result := .error fault }
        | .ok c =>
          let c := { c with payload }
          match ColumnOf.normalise c with
          | .error fault => { model := put m (.column c), result := .error fault }
          | .ok (accepted, c) =>
            { model := (put m (.column c)).touch side.key
              result := .ok accepted
              events := if accepted then [] else [.refusedPayload side index] }

/-- Whether the records at one position of both lists are connected. -/
def pairConnected (a b : Value) : Except Fault Bool := do
  let a ← a.asColumn "connected"
  if a.connected then
    let b ← b.asColumn "connected"
    return b.connected
  else return false

/-- For each position that both lists have, whether its records are connected. -/
def summary (m : Model) : Edit (List Bool) :=
  let m := repairBoth m
  { model := m
    result := ((items m .source).zip (items m .target)).mapM fun (a, b) => pairConnected a b }

/-- Whether there are connected positions and no other ones. -/
def allConnected (flags : List Bool) : Bool :=
  !flags.isEmpty && flags.all id

/-- The message on a record without a name. -/
def nameRequired : String := "Every mapped column needs a name"

/-- The message on a record without a data type. -/
def typeRequired : String := "Every mapped column needs a data type"

/-- The message on a target record without a readable payload. -/
def payloadRequired : String := "Every target record needs a well-formed JSON payload"

/-- Whether some entry lacks something, in order, up to the first that does. -/
def someLacks (has : Value → Except Fault Bool) : List Value → Except Fault Bool
  | [] => .ok false
  | entry :: rest => do
    if ← has entry then someLacks has rest else return true

/-- Whether an entry has a name. -/
def hasName (entry : Value) : Except Fault Bool :=
  (entry.asColumn "name").map (·.name.isTrue)

/-- Whether an entry has a data type. -/
def hasType (entry : Value) : Except Fault Bool :=
  (entry.asColumn "data_type").map (·.dataType.isTrue)

/-- Whether an entry has a readable payload. -/
def hasPayload (entry : Value) : Except Fault Bool := do
  (← entry.asColumn "has_valid_json").hasPayload

/-- Whether both lists are complete enough to submit: every record has a name and a data type or,
where the target takes free-form records, every source record a name and every target record a
readable payload. The result is what is missing. -/
def check (source target : Value) (singleSink : Bool) : Except Fault (Option String) := do
  if singleSink then
    if ← someLacks hasName (← source.toSequence) then return some nameRequired
    if ← someLacks hasPayload (← target.toSequence) then return some payloadRequired
    return none
  else
    if ← someLacks hasName (← source.toSequence) then return some nameRequired
    if ← someLacks hasName (← target.toSequence) then return some nameRequired
    if ← someLacks hasType (← source.toSequence) then return some typeRequired
    if ← someLacks hasType (← target.toSequence) then return some typeRequired
    return none

/-- The check of both lists of a model. -/
def validate (m : Model) (singleSink : Bool) : Edit (Option String) :=
  let m := repairBoth m
  { model := m
    result := check (m.get Side.source.key) (m.get Side.target.key) singleSink }

end Mapping

end SyncForm
