import SyncForm.Descriptor

/-!
# The task form

The descriptor table of the form of a data synchronisation task, in rendering order. A change of a
field on one side clears what lies downstream on that side and looks it up anew: the type clears the
instance, the instance the table, the table the columns and partitions.
-/

namespace SyncForm.Template

open Keys

/-- Offers the types of the catalog. -/
def typeLoader (key : String) (sourcesOnly : Bool) (disabled : List String) : Trigger :=
  { fetch := .types key sourcesOnly disabled, choiceKeys := [key], prime := true }

/-- Looks up the instances of a type. -/
def instanceTrigger (typeKey instanceKey : String) (produces : List String) : Trigger :=
  { fetch := .instances typeKey instanceKey, produces, choiceKeys := [instanceKey], prime := true }

/-- Looks up the tables of an instance. -/
def tableTrigger (instanceKey tableKey : String) (produces : List String)
    (unlessSink : Option String) : Trigger :=
  { fetch := .tables instanceKey tableKey unlessSink, produces, choiceKeys := [tableKey]
    prime := true }

/-- Looks up the columns and partitions of a table. -/
def columnTrigger (instanceKey tableKey columnsKey partitionsKey : String) : Trigger :=
  { fetch := .columns instanceKey tableKey columnsKey partitionsKey
    produces := [columnsKey, partitionsKey] }

/-- Choices with texts as labels. -/
def choicesOf (pairs : List (String × Value)) : List Choice :=
  pairs.map fun (label, value) => ⟨.text label, value⟩

/-- The rules by which rows are written to a target of the first type. -/
def writeModes : List Choice :=
  choicesOf [
    ("insert into", .text "0"), ("replace into", .text "1"),
    ("on duplicate key update", .text "2")]

/-- The rules by which files are written to a target of the second type. -/
def ruleModes : List Choice :=
  choicesOf [("append", .text "3"), ("nonConflict", .text "4"), ("truncate", .text "5")]

/-- How an index takes part in an alias. -/
def aliasModes : List Choice :=
  choicesOf [("append", .int 0), ("exclusive", .int 1)]

/-- Limits on the bytes per second. -/
def byteSpeeds : List Choice :=
  choicesOf [
    ("0 (unlimited)", .int 0), ("1KB", .int 1024), ("10KB", .int 10240), ("50KB", .int 51200),
    ("100KB", .int 102400), ("512KB", .int 524288)]

/-- Limits on the records per second. -/
def recordSpeeds : List Choice :=
  choicesOf [
    ("0 (unlimited)", .int 0), ("500", .int 500), ("1000", .int 1000), ("1500", .int 1500),
    ("2000", .int 2000), ("2500", .int 2500), ("3000", .int 3000)]

/-- The write modes of the target type; only two types have any. -/
def writeModeRule : ChoiceRule :=
  { reads := [targetType]
    build := fun m =>
      let type := m.get targetType
      if type.isText Datasource.hive then ruleModes
      else if type.isText Datasource.mysql then writeModes
      else [] }

/-- A field whose weight the layout policy gives. -/
def laidOut (key : String) (kind : FieldKind) (group label : String) : Descriptor :=
  { key, kind, label, group := some group, dependsOn := Keys.layout }

/-- A heading between fields. -/
def divider (name group label : String) : Descriptor :=
  laidOut ("divider." ++ name) .divider group label

/-- A select field that must be filled in, with the lookup that its change triggers. -/
def chosen (key group label : String) (trigger : Trigger) : Descriptor :=
  { laidOut key .select group label with required := true, trigger := some trigger }

/-- A list that starts empty. -/
def listField (key : String) (kind : FieldKind) (group label : String) (rules : List Rule) :
    Descriptor :=
  { laidOut key kind group label with usual := .list [], rules }

/-- A parameter of the writer for search indexes. -/
def indexField (name : String) (kind : FieldKind) (label : String) : Descriptor :=
  laidOut ("es_params." ++ name) kind "es_params" label

/-- A parameter of half the width, with its default. -/
def halfField (name : String) (kind : FieldKind) (label : String) (usual : Value) : Descriptor :=
  { laidOut ("es_params." ++ name) kind "es_params_half" label with usual }

/-- A number that must be filled in. -/
def numberField (key label : String) (usual : Int) : Descriptor :=
  { laidOut key .number "datasource" label with
    usual := .int usual, required := true, rules := [.number] }

/-- A memory size in a column of its own. -/
def memoryField (key label : String) (usual : Int) : Descriptor :=
  { key, kind := .number, label, span := 12, usual := .int usual }

/-- The fields of the source. -/
def sourceFields (disabled : List String) : List Descriptor := [
  divider "source" "source_table" "Data source",
  { key := customConfig, kind := .switch, label := "Custom template", usual := .bool false },
  { chosen sourceType "datasource" "Datasource type"
      (instanceTrigger sourceType sourceInstance [sourceInstance]) with
    loader := some (typeLoader sourceType true disabled) },
  chosen sourceInstance "datasource" "Datasource instance"
    (tableTrigger sourceInstance sourceTable [sourceTable] none),
  chosen sourceTable "source_table" "Table"
    (columnTrigger sourceInstance sourceTable sourceColumns sourcePartitions),
  laidOut "where" .textarea "where" "Data filter",
  laidOut "split_pk" .textarea "where" "Split field",
  listField sourcePartitions .partitionList "ds_partitions" "Partitions" [.partitionValues],
  { laidOut jsonTemplate .editor "json_editor" "Custom JSON template" with required := true }]

/-- The fields of the target. -/
def targetFields (disabled : List String) : List Descriptor := [
  divider "target" "source_table" "Data target",
  { chosen targetType "destination_datasource" "Target datasource type"
      (instanceTrigger targetType targetInstance [targetInstance, writeMode]) with
    loader := some (typeLoader targetType false disabled) },
  chosen targetInstance "destination_datasource" "Target datasource instance"
    (tableTrigger targetInstance targetTable [targetTable, targetColumns] (some targetType)),
  chosen targetTable "target_table" "Target table"
    (columnTrigger targetInstance targetTable targetColumns targetPartitions),
  listField "pre_statements" .multiInput "other_statement" "Pre statements" [],
  listField "post_statements" .multiInput "other_statement" "Post statements" [],
  listField targetPartitions .partitionList "dt_partitions" "Target partitions"
    [.partitionValues],
  { laidOut writeMode .select "write_mode" "Write mode" with
    required := true, choiceRule := some writeModeRule }]

/-- The parameters of the writer for search indexes. -/
def indexFields : List Descriptor := [
  divider "es_params" "es_params" "Elasticsearch",
  { indexField "index" .input "Index" with required := true },
  indexField "type" .input "Type",
  { indexField "clean_up" .switch "Clean up" with usual := .bool false },
  indexField "splitter" .input "Splitter",
  indexField "alias" .input "Alias",
  { indexField "alias_mode" .select "Alias mode" with usual := .int 0, choices := aliasModes },
  indexField "settings" .editor "Index settings",
  divider "es_advanced" "es_params" "Elasticsearch advanced",
  halfField "ignore_write_error" .switch "" (.bool false),
  halfField "ignore_parse_error" .switch "" (.bool false),
  halfField "try_size" .number "Try size" (.int 0),
  halfField "timeout" .number "Timeout" (.int 0),
  halfField "discovery" .switch "" (.bool false),
  halfField "compression" .switch "" (.bool false),
  halfField "multi_thread" .switch "" (.bool false),
  halfField "dynamic" .switch "" (.bool false)]

/-- The mapping of columns and the control of the channel. -/
def channelFields : List Descriptor := [
  divider "mapping" "source_table" "Field mapping",
  listField Keys.mapping .fieldMapping "source_table" "Field mapping" [.fieldMapping],
  divider "channel" "source_table" "Channel control",
  listField localParams .customParameters "custom_parameter" "Custom parameters" [.localParams],
  numberField "batch_size" "Batch size" 1024,
  numberField "channel" "Channel" 1,
  { laidOut "job_speed_byte" .select "job_speed" "Speed limit (bytes)" with
    usual := .int 0, choices := byteSpeeds },
  { laidOut "job_speed_record" .select "job_speed" "Speed limit (records)" with
    usual := .int 0, choices := recordSpeeds },
  memoryField "xms" "Xms (GB)" 1,
  memoryField "xmx" "Xmx (GB)" 5]

/-- The task form; the given type codes are not offered, in whatever case they are written. -/
def taskForm (disabled : List String) : List Descriptor :=
  let disabled := disabled.map Text.upper
  sourceFields disabled ++ targetFields disabled ++ indexFields ++ channelFields

end SyncForm.Template
