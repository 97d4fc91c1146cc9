import SyncForm.Mapping
import SyncForm.Model.Export
import SyncForm.Resolver.Basic

/-!
# Forms

A form joins a resolver with the mapping editor on one model. Whenever the resolver writes one of
the two column lists while the editor is in use, the lists are reconciled: `Form.follow` is the
reaction of the form. A form is validated field by field, the hidden ones left out, and exported as
job parameters.
-/

namespace SyncForm

/-- A descriptor table with the state of its resolver. -/
structure Form where
  plan : Plan
  resolver : Resolver

namespace Form

/-- Whether the mapping editor is in use: there is a source table, and a target table or, where the
target takes free-form records, a target instance. -/
def isEditable (m : Model) : Bool :=
  let sink := if Mapping.isSingleSink m then Keys.targetInstance else Keys.targetTable
  (m.get Keys.sourceTable).isTrue && (m.get sink).isTrue

/-- Reconciles the column lists after one of them was written. -/
def follow : Reaction := fun key m =>
  if (key == Keys.sourceColumns || key == Keys.targetColumns) && isEditable m then
    let edit := Mapping.reconcile m (Mapping.isSingleSink m)
    match edit.result with
    | .ok 0 => (edit.model, edit.events)
    | .ok added => (edit.model, edit.events ++ [.followed added key])
    | .error _ => (edit.model, edit.events)
  else (m, [])

/-- The report on a column list that cannot be read. -/
def unreadable (key : String) (issues : List String) : Fault :=
  .report (Fault.validation ("Invalid " ++ key) issues { key := some key })

/-- Whether a fault says that an entry is no column. -/
def isEntryFault (fault : Fault) : Bool :=
  fault.family == "TypeError" || fault.family == "ValueError"

/-- The records of the entries of a column list and what is wrong with the others, by position. -/
def readEntries (key : String) : Nat → List Value → Except Fault (List Value × List String)
  | _, [] => .ok ([], [])
  | i, .column c :: rest => do
    let (records, issues) ← readEntries key (i + 1) rest
    return (.column c :: records, issues)
  | i, entry :: rest =>
    match Column.ofValue entry with
    | .ok c => do
      let (records, issues) ← readEntries key (i + 1) rest
      return (.column c :: records, issues)
    | .error fault =>
      if isEntryFault fault then do
        let (records, issues) ← readEntries key (i + 1) rest
        return (records, (key ++ "[" ++ toString i ++ "]: " ++ fault.text) :: issues)
      else .error fault

/-- The records that a column list of job parameters describes. -/
def readColumns (key : String) : Value → Except Fault (List Value)
  | .null => .ok []
  | .text "" => .ok []
  | .list entries => do
    let (records, issues) ← readEntries key 0 entries
    if issues.isEmpty then return records else throw (unreadable key issues)
  | _ => .error (unreadable key [key ++ ": expected a list of columns"])

/-- Reads the column list under a key of a model, if the model holds it. -/
def readList (m : Model) (key : String) : Except Fault Model :=
  match m.value? key with
  | none => .ok m
  | some value => (readColumns key value).map fun records => m.replace key (.list records)

/-- The resolver of a table on a model, not ready yet, without a mapping editor. -/
def bare (m : Model) (descriptors : List Descriptor) : Except Fault Form := do
  let plan ← Plan.ofDescriptors descriptors Reaction.none
  return { plan, resolver := plan.start m }

/-- Makes the resolver of a form ready. -/
def setUp (f : Form) : Except Fault Form :=
  match f.plan.setUp f.resolver with
  | (resolver, .ok ()) => .ok { f with resolver }
  | (_, .error fault) => .error fault

/-- The form of job parameters with a descriptor table. -/
def ofValues (values : Value) (descriptors : List Descriptor) : Except Fault Form := do
  let m ← Model.ofValue (values.orElse (.object []))
  let m ← readList m Keys.sourceColumns
  let m ← readList m Keys.targetColumns
  let plan ← Plan.ofDescriptors descriptors follow
  let m := (m.ensure Keys.sourceColumns (.list [])).ensure Keys.targetColumns (.list [])
  setUp { plan, resolver := plan.start m }

/-- Whether the mapping editor is in use. -/
def editable (f : Form) : Bool :=
  isEditable f.resolver.model

/-- Replaces the model. -/
def withModel (f : Form) (model : Model) : Form :=
  { f with resolver := { f.resolver with model } }

/-- Writes a value of the user. -/
def change (f : Form) (key : String) (value : Value) (running : Bool) :
    Form × Except Fault (Option Ticket) :=
  let (resolver, result) := f.plan.change (f.resolver.log (.changed key value)) key value running
  ({ f with resolver }, result)

/-- Issues the lookups of the first load. -/
def prime (f : Form) (running : Bool) : Form × Except Fault (List Ticket) :=
  let (resolver, result) := f.plan.prime f.resolver running
  ({ f with resolver }, result)

/-- Completes a lookup. -/
def complete (f : Form) (l : Lookup) (answer : Except Fault (Option LookupResult)) :
    Form × Except Fault LookupOutcome :=
  let (resolver, result) := f.plan.complete f.resolver l answer
  ({ f with resolver }, result)

/-- Runs an operation of the mapping editor. -/
def edit {α : Type} (f : Form) (operation : Model → Edit α) : Form × Except Fault α :=
  let done := operation f.resolver.model
  let resolver :=
    { f.resolver with model := done.model, journal := f.resolver.journal ++ done.events }
  ({ f with resolver }, done.result)

/-- The fields shown, in order. -/
def visibleFields (f : Form) : Except Fault (List Descriptor) := do
  let shown ← f.plan.descriptors.mapM fun d => (f.resolver.facet d.key).map fun facet => (d, facet)
  return (shown.filter (·.2.visible)).map (·.1)

/-- The first complaint of some rules about a value. -/
def firstComplaint (value : Value) (m : Model) : List Rule → Except Fault (Option String)
  | [] => .ok none
  | rule :: rest => do
    match ← rule.check value m with
    | some message => return some message
    | none => firstComplaint value m rest

/-- What is wrong with the value of a field: it is required and blank, or a rule complains. -/
def complaint (d : Descriptor) (value : Value) (m : Model) : Except Fault (Option String) :=
  if d.required && isBlank value then .ok (some "Required") else firstComplaint value m d.rules

/-- Checks some fields in order, marking their model keys; the result is a message for each field at
fault. -/
def checkFields (plan : Plan) (r : Resolver) :
    List Descriptor → Resolver × Except Fault (List (String × String))
  | [] => (r, .ok [])
  | d :: rest =>
    if d.modelKeys.isEmpty then checkFields plan r rest
    else
      match plan.view r d.key with
      | .error fault => (r, .error fault)
      | .ok view =>
        match complaint d view.value r.model with
        | .error fault => (r, .error fault)
        | .ok message =>
          let model := d.modelKeys.foldl
            (fun m key => m.adjust key fun e => { e with validationError := message }) r.model
          let (r, others) := checkFields plan { r with model } rest
          match message with
          | some message => (r, others.map ((d.key, message) :: ·))
          | none => (r, others)

/-- Checks every visible field. -/
def validate (f : Form) : Form × Except Fault (List (String × String)) :=
  match f.visibleFields with
  | .error fault => (f, .error fault)
  | .ok shown =>
    let (resolver, result) := checkFields f.plan f.resolver shown
    ({ f with resolver }, result)

/-- The report on a form with fields at fault. -/
def invalid (issues : List (String × String)) : Fault :=
  .report (Fault.validation "Job form has invalid fields"
    (issues.map fun (key, message) => key ++ ": " ++ message) {})

/-- The entries of a column list as the task runner consumes them. -/
def exportColumns (v : Value) : Except Fault (List Value) := do
  (← (v.orElse (.list [])).toSequence).mapM fun entry =>
    (entry.asColumn "to_dict").map Column.toValue

/-- Exports the job parameters of a form as it is. -/
def exportParams (f : Form) : Form × Except Fault (Assoc Value) :=
  let keys := (f.plan.descriptors.filter (·.kind != .divider)).flatMap (·.modelKeys)
  let (params, model) := f.resolver.model.exportKeys keys
  let f := f.withModel model
  let columns := do
    let source ← exportColumns (model.get Keys.sourceColumns)
    let target ← exportColumns (model.get Keys.targetColumns)
    return (source, target)
  match columns with
  | .error fault => (f, .error fault)
  | .ok (source, target) =>
    let params := Assoc.putAll params
      [(Keys.sourceColumns, .list source), (Keys.targetColumns, .list target)]
    ({ f with resolver := f.resolver.log (.exported params.length) }, .ok params)

/-- Exports the job parameters, of a valid form only if so asked. -/
def toParams (f : Form) (strict : Bool) : Form × Except Fault (Assoc Value) :=
  if strict then
    match f.validate with
    | (f, .error fault) => (f, .error fault)
    | (f, .ok []) => f.exportParams
    | (f, .ok issues) => (f, .error (invalid issues))
  else f.exportParams

end Form

end SyncForm
