import SyncForm.Descriptor
import SyncForm.Journal
import SyncForm.Layout

/-!
# Plans

A plan is the fixed part of a resolver: a table of descriptors with distinct keys, and the reaction
of the form to a written key. Everything else about the table is computed from it: which field owns
a model key, which fields depend on a key, which lookup a key triggers.
-/

namespace SyncForm

/-- What a form does to its model when the resolver has written a key. -/
abbrev Reaction := String → Model → Model × List Event

/-- A form that leaves its model alone. -/
def Reaction.none : Reaction := fun _ m => (m, [])

/-- A descriptor table with distinct keys, and the reaction of the form. -/
structure Plan where
  descriptors : List Descriptor
  distinct : (descriptors.map (·.key)).Nodup
  react : Reaction

namespace Plan

/-- The first key of a list that occurs in it before. -/
def firstRepeated : List String → List String → Option String
  | _, [] => none
  | seen, key :: rest => if seen.contains key then some key else firstRepeated (key :: seen) rest

/-- The plan of a descriptor table; a key that occurs twice is reported. -/
def ofDescriptors (descriptors : List Descriptor) (react : Reaction) : Except Fault Plan :=
  if distinct : (descriptors.map (·.key)).Nodup then .ok { descriptors, distinct, react }
  else
    .error (.report (Fault.configuration "Duplicate descriptor key"
      (firstRepeated [] (descriptors.map (·.key))) .null {}))

variable (plan : Plan)

/-- The descriptor of a field. -/
def find? (key : String) : Option Descriptor :=
  plan.descriptors.find? (·.key == key)

/-- The lookup that a change of a field triggers. -/
def trigger? (key : String) : Option Trigger :=
  (plan.find? key).bind (·.trigger)

/-- The model keys of all fields, in order. -/
def ownedKeys : List String :=
  (plan.descriptors.flatMap (·.modelKeys)).eraseDups

/-- The field that owns a model key: the last one that writes it. -/
def owner? (key : String) : Option Descriptor :=
  plan.descriptors.reverse.find? (·.modelKeys.contains key)

/-- The default of a model key; a key that no field owns is reset to the empty text. -/
def usual (key : String) : Value :=
  ((plan.owner? key).map (·.usual)).getD (.text "")

end Plan

namespace Descriptor

/-- The weight of a field: the weight of its group, or its fixed span. -/
def weight (d : Descriptor) (m : Model) : Int :=
  match d.group with
  | some group => Layout.weight (Layout.spansOf m) group
  | none => d.span

/-- The choices of a field before any lookup. -/
def initialChoices (d : Descriptor) (m : Model) : List Choice :=
  match d.choiceRule with
  | some rule => rule.build m
  | none => d.choices

/-- The state of a field before any lookup. -/
def initialFacet (d : Descriptor) (m : Model) : Facet :=
  { weight := d.weight m, choices := d.initialChoices m }

/-- The state of a field evaluated anew: its weight, and its choices where a rule gives them. -/
def refresh (d : Descriptor) (m : Model) (f : Facet) : Facet :=
  { weight := d.weight m
    choices := match d.choiceRule with
      | some rule => rule.build m
      | none => f.choices }

/-- A report on the declarations of a field. -/
def misdeclared (d : Descriptor) (message : String) (value : Value) : Fault :=
  .report (Fault.configuration message (some d.key) value {})

/-- Fails with a report if some keys are missing. -/
def demand (d : Descriptor) (message : String) (missing : List String) : Except Fault Unit :=
  if missing.isEmpty then .ok ()
  else .error (d.misdeclared message (.list (missing.map .text)))

/-- Checks that a field declares what it reads and that all it names exists. -/
def checkDeclarations (d : Descriptor) (fields : List String) (m : Model) : Except Fault Unit := do
  if d.group.isSome then
    d.demand "Laid-out field does not declare its layout inputs"
      (Keys.layout.filter (!d.dependsOn.contains ·))
  if let some rule := d.choiceRule then
    d.demand "Options rule reads undeclared keys" (rule.reads.filter (!d.dependsOn.contains ·))
  d.demand "Field depends on keys missing from the model" (d.dependsOn.filter (!m.holds ·))
  if let some trigger := d.trigger then
    if let some key := trigger.produces.find? (!m.holds ·) then
      throw (d.misdeclared "Lookup produces a key missing from the model" (.text key))
    if let some key := trigger.choiceKeys.find? (!fields.contains ·) then
      throw (d.misdeclared "Lookup fills options of an unknown field" (.text key))

end Descriptor

end SyncForm
