import SyncForm.Catalog.Payload
import SyncForm.Fault

/-!
# Catalogs

A catalog is the collaborator that lookups ask: it lists datasource types, instances of a type,
tables of a datasource and the columns of a table. A `Query` is one question, a `Catalog` answers
each of them or fails.
-/

namespace SyncForm

/-- A question to a catalog. Lookups of other tables than the task form ask by a name. -/
inductive Query where
  | types
  | instances (type : Value)
  | tables (datasource : Value)
  | columns (datasource table : Value)
  | named (name : String) (value : Value)

namespace Query

/-- The name of the operation that a query asks for. -/
def operation : Query → String
  | types => "list_datasource_types"
  | instances _ => "list_datasource_instances"
  | tables _ => "list_tables"
  | columns _ _ => "fetch_columns_and_partitions"
  | named name _ => "fetch:" ++ name

/-- What the operation is asked about. -/
def arguments : Query → List Value
  | types => []
  | instances type => [type]
  | tables datasource => [datasource]
  | columns datasource table => [datasource, table]
  | named _ value => [value]

/-- A query as a list: the operation, then its arguments. -/
def toValue (q : Query) : Value :=
  .list (.text q.operation :: q.arguments)

/-- The query of an operation, if it takes that many arguments. -/
def ofCall? (operation : String) (arguments : List Value) : Option Query :=
  match operation, arguments with
  | "list_datasource_types", [] => some types
  | "list_datasource_instances", [type] => some (instances type)
  | "list_tables", [datasource] => some (tables datasource)
  | "fetch_columns_and_partitions", [datasource, table] => some (columns datasource table)
  | _, _ => none

end Query

/-- The answers of a catalog. -/
structure Catalog where
  types : Except Fault (List DatasourceType)
  instances : Value → Except Fault (List DatasourceInstance)
  tables : Value → Except Fault (List Value)
  columns : Value → Value → Except Fault TableColumns
  named : String → Value → Except Fault Unit

namespace Catalog

/-- The report that an operation is out of order. -/
def unavailable (operation : String) : Fault :=
  .report (Fault.catalog "Catalog unavailable" (some operation) none none {})

/-- A catalog of which some operations are out of order. -/
def without (c : Catalog) (operations : List String) : Catalog :=
  let guarded {α : Type} (q : Query) (answer : Except Fault α) : Except Fault α :=
    if operations.contains q.operation then .error (unavailable q.operation) else answer
  { types := guarded .types c.types
    instances := fun type => guarded (.instances type) (c.instances type)
    tables := fun datasource => guarded (.tables datasource) (c.tables datasource)
    columns := fun datasource table =>
      guarded (.columns datasource table) (c.columns datasource table)
    named := fun name value => guarded (.named name value) (c.named name value) }

end Catalog

end SyncForm
