import SyncForm.Datasource
import SyncForm.Keys
import SyncForm.Model.Basic

/-!
# Layout policy

The weight of a laid-out field is a function of three values: whether the custom template is in use,
the source type and the target type. A base table gives a weight to every group, and the source and
target types overlay it. A weight of zero hides the field.
-/

namespace SyncForm.Layout

/-- Weights by group, in order. -/
abbrev Spans := Assoc Int

/-- The groups, in the order of the layout. -/
def groups : List String := [
  "datasource", "source_table", "where", "ds_partitions", "json_editor", "destination_datasource",
  "target_table", "other_statement", "dt_partitions", "write_mode", "es_params", "es_params_half",
  "custom_parameter", "job_speed"]

/-- Under the custom template only the editor of the JSON template is laid out. -/
def customSpans : Spans :=
  groups.map fun group => (group, if group = "json_editor" then 24 else 0)

/-- The weights before any overlay. -/
def standardSpans : Spans := [
  ("datasource", 12), ("source_table", 24), ("where", 24), ("ds_partitions", 0),
  ("json_editor", 0), ("destination_datasource", 12), ("target_table", 24),
  ("other_statement", 22), ("dt_partitions", 0), ("write_mode", 0), ("es_params", 0),
  ("es_params_half", 0), ("custom_parameter", 24), ("job_speed", 12)]

/-- What a source type changes. -/
def sourceOverlay (code : String) : Spans :=
  if code = Datasource.hive then [("where", 0), ("ds_partitions", 24)] else []

/-- What a target type changes. -/
def targetOverlay (code : String) : Spans :=
  if code = Datasource.mysql then [("write_mode", 24)]
  else if code = Datasource.hive then
    [("other_statement", 0), ("dt_partitions", 24), ("write_mode", 24)]
  else if code = Datasource.elasticsearch then
    [("other_statement", 0), ("es_params", 24), ("es_params_half", 12), ("target_table", 0)]
  else []

/-- The weight of every group for a mode, a source type and a target type. -/
def spans (custom : Bool) (source target : Option String) : Spans :=
  if custom then customSpans
  else
    Assoc.putAll (Assoc.putAll standardSpans (sourceOverlay (source.getD "")))
      (targetOverlay (target.getD ""))

/-- The code that a value of a type field stands for; an empty value stands for none. -/
def codeOf (v : Value) : Option String :=
  if v.isTrue then some v.plain else none

/-- The weights that the layout inputs of a model give. -/
def spansOf (m : Model) : Spans :=
  spans (m.get Keys.customConfig).isTrue (codeOf (m.get Keys.sourceType))
    (codeOf (m.get Keys.targetType))

/-- The weight of a group; a group that the policy does not know is hidden. -/
def weight (s : Spans) (group : String) : Int :=
  (Assoc.valueOf? s group).getD 0

/-- One row of the policy written out. -/
structure Row where
  custom : Bool
  source : String
  target : String
  spans : Spans

/-- The policy for every mode and every pair of the given codes, each pair once. -/
def table (codes : List String) : List Row :=
  let codes := codes.eraseDups
  [false, true].flatMap fun custom =>
    codes.flatMap fun source =>
      codes.map fun target => { custom, source, target, spans := spans custom source target }

end SyncForm.Layout
