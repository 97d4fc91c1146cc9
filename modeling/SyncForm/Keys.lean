/-!
# Model keys of the task form

The keys that the layout, the lookups and the mapping editor read.
-/

namespace SyncForm.Keys

def customConfig : String := "custom_config"
def sourceType : String := "ds_type"
def sourceInstance : String := "data_source"
def sourceTable : String := "source_table"
def sourcePartitions : String := "ds_partitions"
def sourceColumns : String := "ds_columns"
def targetType : String := "dt_type"
def targetInstance : String := "data_target"
def targetTable : String := "target_table"
def targetPartitions : String := "dt_partitions"
def targetColumns : String := "dt_columns"
def writeMode : String := "write_mode"
def jsonTemplate : String := "json"
def localParams : String := "local_params"

/-- The inputs of the layout; every laid-out field depends on them. -/
def layout : List String := [customConfig, sourceType, targetType]

/-- The key of the mapping field, which joins both column lists. -/
def mapping : String := sourceColumns ++ ":" ++ targetColumns

end SyncForm.Keys
