import SyncForm.Checked
import SyncForm.Column
import SyncForm.Datasource
import SyncForm.Text.Upper

/-!
# Catalog payloads

The shapes in which a catalog answers: datasource types, instances and the columns of a table. Each
is read from plain data with every field checked.
-/

namespace SyncForm

/-- A datasource type and whether it may be selected. -/
structure DatasourceType where
  code : String
  enabled : Bool
  deriving DecidableEq

/-- The built-in types, in order. -/
def DatasourceType.builtIn : List DatasourceType :=
  Datasource.builtIn.map fun (code, enabled) => { code, enabled }

/-- A configured datasource of some type. -/
structure DatasourceInstance where
  id : String
  name : String
  deriving DecidableEq

/-- A column of a table. -/
structure TableColumn where
  name : String
  type : String
  deriving DecidableEq

/-- The columns and the partition columns of a table. -/
structure TableColumns where
  columns : List TableColumn
  partitionColumns : List String
  partitioned : Bool
  deriving DecidableEq

open Checked in
/-- A type code, in upper case and not empty. -/
def DatasourceType.ofValue (v : Value) : Checked DatasourceType := do
  let m ← members "DatasourceType" v
  let (code, enabled) ←
    (required m ["code"] fun v => do
      let code ← text v
      if code.isEmpty then refuse .emptyText else return Text.upper code).both
    (optional m ["enabled"] true truth)
  return { code, enabled }

open Checked in
/-- An instance; its id is kept as text, whatever it is given as. -/
def DatasourceInstance.ofValue (v : Value) : Checked DatasourceInstance := do
  let m ← members "DatasourceInstance" v
  let (id, name) ←
    (required m ["id"] fun v => .ok v.plain).both (required m ["name"] text)
  return { id, name }

open Checked in
/-- A column with its type, which may be missing. -/
def TableColumn.ofValue (v : Value) : Checked TableColumn := do
  let m ← members "ColumnInfo" v
  let (name, type) ←
    (required m ["name", "columnName"] text).both
      (optional m ["type", "dataType", "columnType"] "" text)
  return { name, type }

open Checked in
/-- The name of a partition column. -/
def partitionColumnOfValue (v : Value) : Checked String := do
  required (← members "PartitionColumn" v) ["name", "columnName"] text

open Checked in
/-- The columns of a table; a list given as `null` is empty. -/
def TableColumns.ofValue (v : Value) : Checked TableColumns := do
  let m ← members "TableColumns" v
  let lenient {α : Type} (check : Value → Checked α) : Value → Checked (List α)
    | .null => .ok []
    | v => list check v
  let (columns, partitionColumns, partitioned) ←
    (optional m ["columns"] [] (lenient TableColumn.ofValue)).both
      ((optional m ["partition_columns", "partitionColumns"] []
        (lenient partitionColumnOfValue)).both
        (optional m ["is_partitioned", "partitionTable"] false truth))
  return { columns, partitionColumns, partitioned }

namespace TableColumns

/-- One entry `name=` for each partition column, for the user to fill in; none where the table is
not partitioned. -/
def placeholders (t : TableColumns) : List String :=
  if t.partitioned then t.partitionColumns.map (· ++ "=") else []

/-- Column records for the mapping editor, not connected, numbered from a position on. -/
def recordsFrom : Nat → List TableColumn → List Value
  | _, [] => []
  | i, c :: rest =>
    .column { ordinal := i, name := .text c.name, dataType := .text c.type, connected := false
              payload := .text "" } :: recordsFrom (i + 1) rest

/-- Column records for the mapping editor, in order. -/
def records (t : TableColumns) : List Value :=
  recordsFrom 0 t.columns

end TableColumns

end SyncForm
