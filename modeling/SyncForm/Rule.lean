import SyncForm.Mapping

/-!
# Validation rules

A rule looks at the value of a field and at the model and answers with a message, or with none where
the value is acceptable. `isBlank` is the presence rule that all required fields share.
-/

namespace SyncForm

/-- Whether a value counts as not filled in: `null`, a text of blanks, an empty list or object. -/
def isBlank : Value → Bool
  | .null => true
  | .text s => Text.allBlank s
  | .list items => items.isEmpty
  | .object members => members.isEmpty
  | _ => false

/-- The rules that a descriptor may name. -/
inductive Rule where
  | partitionValues
  | number
  | localParams
  | fieldMapping
  deriving DecidableEq

namespace Rule

/-- All rules. -/
def all : List Rule := [partitionValues, number, localParams, fieldMapping]

/-- The written name of a rule. -/
def name : Rule → String
  | partitionValues => "partition_values"
  | number => "number"
  | localParams => "local_params"
  | fieldMapping => "field_mapping"

/-- The message on a partition entry without a value. -/
def partitionMessage : String := "Fill in a value for every partition (name=value)"

/-- The message on a value that is no number. -/
def numberMessage : String := "Must be a number"

/-- The message on custom parameters that are no list of objects. -/
def paramsMessage : String := "Custom parameters must be a list of prop/value pairs"

/-- The message on a custom parameter without a name. -/
def paramNameMessage : String := "Every custom parameter needs a name"

/-- What follows the first equals sign of a text. -/
def afterEquals (s : String) : List Char :=
  (s.toList.dropWhile (· != '=')).drop 1

/-- Every partition entry `name=value` needs a value; an empty list is acceptable. -/
def checkPartitions (value : Value) : Except Fault (Option String) := do
  let entries ← if value.isTrue then value.toSequence else .ok []
  if entries.any fun entry => (afterEquals entry.plain).isEmpty then return some partitionMessage
  else return none

/-- A number, truth values excluded. -/
def checkNumber : Value → Option String
  | .int _ => none
  | .float _ => none
  | _ => some numberMessage

/-- The texts that occur more than once, in ascending order. -/
def repeated (texts : List String) : List String :=
  ((texts.filter fun t => 1 < texts.count t).eraseDups).mergeSort fun a b => !decide (b < a)

/-- The names of the entries of a parameter list, if all of them are objects. -/
def paramNames : List Value → Option (List String)
  | [] => some []
  | .object members :: rest =>
    let prop := ((Assoc.valueOf? members "prop").getD .null).orElse (.text "")
    (paramNames rest).map (prop.plain :: ·)
  | _ :: _ => none

/-- Custom parameters need names, and no two of them the same. -/
def checkParams (value : Value) : Option String :=
  match value.orElse (.list []) with
  | .list items =>
    match paramNames items with
    | none => some paramsMessage
    | some names =>
      if names.any (·.isEmpty) then some paramNameMessage
      else
        match repeated names with
        | [] => none
        | twice => some ("Duplicate custom parameter: " ++ String.intercalate ", " twice)
  | _ => some paramsMessage

/-- Both column lists of the model must be complete. -/
def checkMapping (m : Model) : Except Fault (Option String) :=
  Mapping.check ((m.get Keys.sourceColumns).orElse (.list []))
    ((m.get Keys.targetColumns).orElse (.list [])) (Mapping.isSingleSink m)

/-- The answer of a rule. -/
def check (rule : Rule) (value : Value) (m : Model) : Except Fault (Option String) :=
  match rule with
  | partitionValues => checkPartitions value
  | number => .ok (checkNumber value)
  | localParams => .ok (checkParams value)
  | fieldMapping => checkMapping m

end Rule

end SyncForm
