import SyncForm.Catalog.Basic

/-!
# Catalogs from plain data

A fixture answers from tables: the types in use, instances by type code, tables by datasource id and
columns by datasource id and table. `Fixture.ofValue` reads one from plain data; type codes are
brought to upper case, ids to text.
-/

namespace SyncForm

/-- A catalog written down, and how long each of its answers takes. -/
structure Fixture where
  types : List DatasourceType
  instances : Assoc (List DatasourceInstance)
  tables : Assoc (List Value)
  columns : Assoc (Assoc TableColumns)
  latency : Binary64

namespace Fixture

/-- The fixture without any instance. -/
def empty : Fixture :=
  { types := DatasourceType.builtIn, instances := [], tables := [], columns := []
    latency := Binary64.zero }

/-- The report on data that is no fixture. -/
def malformed (issues : List Issue) : Fault :=
  .report (Fault.catalog "Malformed catalog fixture" (some "load") none (some (.refused issues)) {})

/-- A checked payload of a fixture. -/
def checked {α : Type} (c : Checked α) : Except Fault α :=
  c.mapError malformed

/-- The entries of a table, each name and value converted; of equal names the last one counts. -/
def convert {α : Type} (name : String → String) (read : Value → Except Fault α) :
    Assoc Value → Assoc α → Except Fault (Assoc α)
  | [], done => .ok done
  | (key, v) :: rest, done => do
    convert name read rest (Assoc.put done (name key) (← read v))

/-- A table that may be left out or empty. -/
def section? (members : Assoc Value) (name : String) : Except Fault (Assoc Value) :=
  (((Assoc.valueOf? members name).getD .null).orElse (.object [])).toMembersOf

/-- The list of instances of a type. -/
def readInstances (v : Value) : Except Fault (List DatasourceInstance) := do
  (← (v.orElse (.list [])).toSequence).mapM fun i => checked (DatasourceInstance.ofValue i)

/-- The columns of the tables of a datasource. -/
def readTables (v : Value) : Except Fault (Assoc TableColumns) := do
  convert id (fun info => checked (TableColumns.ofValue (info.orElse (.object []))))
    (← (v.orElse (.object [])).toMembersOf) []

/-- The fixture that the members of an object describe. -/
def ofMembers (members : Assoc Value) : Except Fault Fixture := do
  let types ←
    match Assoc.valueOf? members "types" with
    | some v => (← v.toSequence).mapM fun t => checked (DatasourceType.ofValue t)
    | none => .ok DatasourceType.builtIn
  let instances ← convert Text.upper readInstances (← section? members "instances") []
  let columns ← convert id readTables (← section? members "columns") []
  let tables := ((Assoc.valueOf? members "tables").getD .null).orElse (.object [])
  let latency ← ((Assoc.valueOf? members "latency").getD (.float Binary64.zero)).toReal
  let tables ← convert id Value.toSequence (← tables.toMembersOf) []
  return { types, instances, tables, columns, latency }

/-- Whether a word occurs in a text. -/
def occurs (word : List Char) : List Char → Bool
  | [] => word.isEmpty
  | c :: rest => word.isPrefixOf (c :: rest) || occurs word rest

/-- The fixture that a value describes; only an object describes one. Other values fail at the
search for the types among them, or behind it. -/
def ofValue : Value → Except Fault Fixture
  | .object members => ofMembers members
  | .text s =>
    .error (if occurs "types".toList s.toList then .notNamed "str" else .lacks "str" "get")
  | .list items =>
    .error (if items.any (·.isText "types") then .notNamed "list" else .lacks "list" "get")
  | v => .error (.notContainer v.kind)

/-- The answers of a fixture. A type that cannot be a key of a table is a fault, and so is an
unknown datasource or table. -/
def toCatalog (f : Fixture) : Catalog :=
  { types := .ok f.types
    instances := fun type =>
      if !type.isKey then .error (.notHashable type.kind)
      else
        match type with
        | .text code => .ok ((Assoc.valueOf? f.instances code).getD [])
        | _ => .ok []
    tables := fun datasource =>
      match Assoc.valueOf? f.tables datasource.plain with
      | some tables => .ok tables
      | none =>
        .error (.report (Fault.catalog ("Unknown datasource: " ++ datasource.plain)
          (some "list_tables") none none {}))
    columns := fun datasource table =>
      if !table.isKey then .error (.notHashable table.kind)
      else
        let tables := (Assoc.valueOf? f.columns datasource.plain).getD []
        match (if let .text name := table then Assoc.valueOf? tables name else none) with
        | some columns => .ok columns
        | none =>
          .error (.report (Fault.catalog ("Unknown table: " ++ table.plain)
            (some "fetch_columns_and_partitions") none none
            { details := [("datasource_id", datasource)] }))
    named := fun _ _ => .ok () }

end Fixture

end SyncForm
