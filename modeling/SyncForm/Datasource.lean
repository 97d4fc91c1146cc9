import SyncForm.Value.Basic

/-!
# Datasource types

The built-in types by code, and the two questions the form asks of a code: whether it can be read
from, and whether it is the one type that takes free-form structured records.
-/

namespace SyncForm.Datasource

/-- The type whose targets have write modes of their own. -/
def mysql : String := "MYSQL"

/-- The partitioned type: its sources are read by partition, its targets written by one. -/
def hive : String := "HIVE"

/-- The single-sink type, which takes free-form records and can only be written to. -/
def elasticsearch : String := "ELASTICSEARCH"

/-- The built-in types and whether the task runner supports them. -/
def builtIn : List (String × Bool) := [
  (mysql, true), ("POSTGRESQL", true), (hive, true), ("SPARK", false), ("CLICKHOUSE", true),
  ("ORACLE", true), ("SQLSERVER", true), ("DB2", false), ("PRESTO", false), (elasticsearch, true),
  ("DM", true)]

/-- Whether a target takes free-form structured records. -/
def isSingleSink (code : Value) : Bool :=
  code.isText elasticsearch

/-- Whether a type can be read from. -/
def isSource (code : Value) : Bool :=
  code.isTrue && !code.isText elasticsearch

end SyncForm.Datasource
