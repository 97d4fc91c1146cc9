import SyncForm.Catalog.Basic
import SyncForm.Datasource

/-!
# What lookups fetch

A lookup works on a snapshot of the model's values. A `Fetch` says which question, if any, it asks
the catalog (`Fetch.query?`), and what it makes of the answer (`Fetch.run`): lists of choices for
select fields and values for model keys. Without a question there is no result, and the lookup is
skipped.
-/

namespace SyncForm

/-- A label with the value it stands for, as a select field offers it. -/
structure Choice where
  label : Value
  value : Value

/-- The values of a model at the moment a lookup was issued. -/
abbrev Snapshot := Assoc Value

/-- What a lookup writes back: values of model keys and lists of choices of fields. -/
structure LookupResult where
  values : Assoc Value := []
  choices : Assoc (List Choice) := []

/-- Where a scripted lookup takes a value from. -/
inductive Origin where
  | copy (key : String)
  | const (value : Value)

/-- A lookup given by data. It asks the catalog by name about the value of its key, fails for some
values and otherwise brings the scripted values and choices. -/
structure Script where
  name : String
  key : String
  skipIfBlank : Option String
  failures : Assoc String
  values : Assoc Origin
  choices : Assoc (List Choice)

/-- How a lookup comes by its result. -/
inductive Fetch where
  /-- The enabled types that are not disabled, offered by a field; sources only where so asked. -/
  | types (target : String) (sourcesOnly : Bool) (disabled : List String)
  /-- The instances of the chosen type. -/
  | instances (typeKey target : String)
  /-- The tables of the chosen instance, unless the type under a key is the single-sink one. -/
  | tables (instanceKey target : String) (unlessSink : Option String)
  /-- The column records and partition entries of the chosen table. -/
  | columns (instanceKey tableKey columnsKey partitionsKey : String)
  | scripted (script : Script)

/-- A value of a snapshot, `null` where there is none. -/
def Snapshot.get (s : Snapshot) (key : String) : Value :=
  (Assoc.valueOf? s key).getD .null

namespace Script

/-- The question of a scripted lookup. -/
def query? (script : Script) (s : Snapshot) : Option Query :=
  let blank :=
    match script.skipIfBlank with
    | some key => !(Snapshot.get s key).isTrue
    | none => false
  if blank then none else some (.named script.name (Snapshot.get s script.key))

/-- The result of a scripted lookup. -/
def result (script : Script) (s : Snapshot) : Except Fault LookupResult :=
  match Assoc.valueOf? script.failures (Snapshot.get s script.key).plain with
  | some text => .error (.stated "RuntimeError" text)
  | none =>
    .ok {
      values := script.values.map fun (key, origin) =>
        (key, match origin with
          | .copy other => Snapshot.get s other
          | .const value => value)
      choices := script.choices }

end Script

namespace Fetch

/-- The question that a lookup asks, if what it needs is given. -/
def query? (f : Fetch) (s : Snapshot) : Option Query :=
  match f with
  | types _ _ _ => some .types
  | instances typeKey _ =>
    let type := Snapshot.get s typeKey
    if type.isTrue then some (.instances type) else none
  | tables instanceKey _ unlessSink =>
    let datasource := Snapshot.get s instanceKey
    let sink :=
      match unlessSink with
      | some key => Datasource.isSingleSink (Snapshot.get s key)
      | none => false
    if datasource.isTrue && !sink then some (.tables (.text datasource.plain)) else none
  | columns instanceKey tableKey _ _ =>
    let datasource := Snapshot.get s instanceKey
    let table := Snapshot.get s tableKey
    if datasource.isTrue && table.isTrue then some (.columns (.text datasource.plain) table)
    else none
  | scripted script => script.query? s

/-- The types that a type field offers. -/
def typeChoices (types : List DatasourceType) (sourcesOnly : Bool) (disabled : List String) :
    List Choice :=
  let offered := types.filter fun t =>
    t.enabled && !disabled.contains t.code &&
      (Datasource.isSource (.text t.code) || !sourcesOnly)
  offered.map fun t => ⟨.text t.code, .text t.code⟩

/-- The instances that an instance field offers, by name, with their ids as values. -/
def instanceChoices (instances : List DatasourceInstance) : List Choice :=
  instances.map fun i => ⟨.text i.name, .text i.id⟩

/-- The tables that a table field offers. -/
def tableChoices (tables : List Value) : List Choice :=
  tables.map fun t => ⟨t, t⟩

/-- The result of a lookup against a catalog; there is none where no question is asked. -/
def run (f : Fetch) (s : Snapshot) (catalog : Catalog) : Except Fault (Option LookupResult) :=
  match f.query? s with
  | none => .ok none
  | some query => do
    let result : LookupResult ←
      match f, query with
      | types target sourcesOnly disabled, _ =>
        catalog.types.map fun ts => { choices := [(target, typeChoices ts sourcesOnly disabled)] }
      | instances _ target, .instances type =>
        (catalog.instances type).map fun is => { choices := [(target, instanceChoices is)] }
      | tables _ target _, .tables datasource =>
        (catalog.tables datasource).map fun ts => { choices := [(target, tableChoices ts)] }
      | columns _ _ columnsKey partitionsKey, .columns datasource table =>
        (catalog.columns datasource table).map fun t => {
          values := [
            (columnsKey, .list t.records),
            (partitionsKey, .list (t.placeholders.map .text))] }
      | scripted script, .named name value => do
        catalog.named name value
        script.result s
      | _, _ => .ok {}
    return some result

end Fetch

end SyncForm
