import SyncForm.Model.Basic

/-!
# Exporting a model

An export nests the keys of a model one level: what stands before the first dot of a key names an
object, the rest is a member of it. A key without a dot exports its own value; where that is an
object, the members that other keys add to it are added to the model's value as well.
-/

namespace SyncForm

/-- A key cut at its first dot. -/
def splitPath (key : String) : Option (String × String) :=
  let cs := key.toList
  match cs.dropWhile (· != '.') with
  | [] => none
  | _ :: rest => some (String.ofList (cs.takeWhile (· != '.')), String.ofList rest)

/-- An export under way: the model, the members written so far, and the keys whose exported value is
the model's own. -/
structure Export where
  model : Model
  members : Assoc Value
  own : List String

namespace Export

/-- Writes a member of an object at top level, a new object if there is none; any other value there
stays as it is. -/
def nest (x : Export) (above name : String) (value : Value) : Export :=
  match (Assoc.valueOf? x.members above).getD (.object []) with
  | .object members =>
    let written := Value.object (Assoc.put members name value)
    { x with
      members := Assoc.put x.members above written
      model := if x.own.contains above then x.model.replace above written else x.model }
  | _ => x

/-- Exports one key; a key the model does not hold is passed over. -/
def step (x : Export) (key : String) : Export :=
  match x.model.value? key with
  | none => x
  | some value =>
    match splitPath key with
    | some (above, name) => x.nest above name value
    | none => { x with members := Assoc.put x.members key value, own := key :: x.own }

end Export

namespace Model

/-- Exports some keys: the nested members and the model afterwards. -/
def exportKeys (m : Model) (keys : List String) : Assoc Value × Model :=
  let done := keys.foldl Export.step { model := m, members := [], own := [] }
  (done.members, done.model)

/-- Exports every key. -/
def exportAll (m : Model) : Assoc Value × Model :=
  m.exportKeys m.keys

end Model

end SyncForm
