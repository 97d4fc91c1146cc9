import SyncForm.Lookup.Fetch
import SyncForm.Rule

/-!
# Field descriptors

A descriptor defines one field of a form: what it shows, which keys it depends on, how it is checked
and which lookup its change triggers. Descriptors never change; what does change about a field, its
weight and its choices, is its `Facet`.
-/

namespace SyncForm

/-- The widget family of a field. -/
inductive FieldKind where
  | select
  | input
  | textarea
  | switch
  | number
  | editor
  | multiInput
  | partitionList
  | fieldMapping
  | customParameters
  | divider
  deriving DecidableEq

namespace FieldKind

/-- All kinds. -/
def all : List FieldKind := [
  select, input, textarea, switch, number, editor, multiInput, partitionList, fieldMapping,
  customParameters, divider]

/-- The written name of a kind. -/
def name : FieldKind → String
  | select => "select"
  | input => "input"
  | textarea => "textarea"
  | switch => "switch"
  | number => "number"
  | editor => "editor"
  | multiInput => "multi_input"
  | partitionList => "partition_list"
  | fieldMapping => "field_mapping"
  | customParameters => "custom_parameters"
  | divider => "divider"

/-- The kind of a name. -/
def ofValue (word : Value) : Except Fault FieldKind :=
  match all.find? fun kind => word.isText kind.name with
  | some kind => .ok kind
  | none => .error (.notAmong word "FieldKind")

end FieldKind

/-- Choices computed from the model; `reads` lists every key that `build` looks at. -/
structure ChoiceRule where
  reads : List String
  build : Model → List Choice

/-- A lookup attached to a field. A change of the field clears the values of `produces` and the
choices of `choiceKeys`; `prime` also runs it on first load, without clearing. -/
structure Trigger where
  fetch : Fetch
  produces : List String := []
  choiceKeys : List String := []
  prime : Bool := false

/-- The definition of a field. -/
structure Descriptor where
  key : String
  kind : FieldKind
  label : String := ""
  group : Option String := none
  span : Int := 24
  dependsOn : List String := []
  usual : Value := .text ""
  choices : List Choice := []
  choiceRule : Option ChoiceRule := none
  loader : Option Trigger := none
  required : Bool := false
  rules : List Rule := []
  trigger : Option Trigger := none

namespace Descriptor

/-- The parts of a list between its colons. -/
def parts : List Char → List Char → List (List Char)
  | current, [] => [current.reverse]
  | current, c :: rest =>
    if c = ':' then current.reverse :: parts [] rest else parts (c :: current) rest

/-- The model keys that a field reads and writes: none for a divider, both column lists for the
mapping field, whose key joins their keys by a colon. -/
def modelKeys (d : Descriptor) : List String :=
  match d.kind with
  | .divider => []
  | .fieldMapping => (parts [] d.key.toList).map String.ofList
  | _ => [d.key]

end Descriptor

/-- What changes about a field: its weight in the layout and the choices it offers. -/
structure Facet where
  weight : Int
  choices : List Choice

/-- Whether a field is shown. -/
def Facet.visible (f : Facet) : Bool :=
  f.weight != 0

end SyncForm
