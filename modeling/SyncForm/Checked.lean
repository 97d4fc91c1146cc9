import SyncForm.Issue
import SyncForm.Text.Numeral
import SyncForm.Value.Basic

/-!
# Checked data

Data from outside is read field by field: a field that fails does not keep the others from being
checked, and the issues of all fields are reported in the order of the fields. A field may have
several names, of which the first one that occurs is read.
-/

namespace SyncForm

/-- A checked value, or the issues that were found in it. -/
abbrev Checked (α : Type) := Except (List Issue) α

namespace Checked

/-- An issue of the value itself. -/
def refuse {α : Type} (complaint : Complaint) : Checked α :=
  .error [{ path := [], complaint }]

/-- Moves the issues of a value one step outwards. -/
def under {α : Type} (place : Place) (c : Checked α) : Checked α :=
  c.mapError fun issues => issues.map (Issue.under place)

/-- Two checked values together; the issues of both are kept. -/
def both {α β : Type} (a : Checked α) (b : Checked β) : Checked (α × β) :=
  match a, b with
  | .ok x, .ok y => .ok (x, y)
  | .ok _, .error j => .error j
  | .error i, .ok _ => .error i
  | .error i, .error j => .error (i ++ j)

/-- A text. -/
def text : Value → Checked String
  | .text s => .ok s
  | _ => refuse .notText

/-- The words for true. -/
def yes : List String := ["true", "t", "yes", "y", "on", "1"]

/-- The words for false. -/
def no : List String := ["false", "f", "no", "n", "off", "0"]

/-- The truth value that a whole number denotes. -/
def wholeTruth (i : Int) : Checked Bool :=
  if i = 0 then .ok false else if i = 1 then .ok true else refuse .unclearTruth

/-- The integer equal to a floating-point number, if it has 64 bits. -/
def wholeOf (x : Binary64) : Option Int :=
  x.truncate?.filter fun i => x.eqInt i && i.natAbs < Nat.pow 2 63

/-- A truth value: one of the words for it in any case, or one of the numbers zero and one. -/
def truth : Value → Checked Bool
  | .bool b => .ok b
  | .int i => wholeTruth i
  | .float x =>
    match wholeOf x with
    | some i => wholeTruth i
    | none => refuse .notTruth
  | .text s =>
    let word := s.map Char.toLower
    if yes.contains word then .ok true
    else if no.contains word then .ok false
    else refuse .unclearTruth
  | _ => refuse .notTruth

/-- A floating-point number, or what spells or equals one. -/
def real : Value → Checked Binary64
  | .bool b => .ok (.ofInt (if b then 1 else 0))
  | .int i =>
    match Binary64.ofInt i with
    | .infinity _ => refuse .notNumber
    | x => .ok x
  | .float x => .ok x
  | .text s =>
    match Text.readPlainReal s with
    | some x => .ok x
    | none => refuse .unclearNumber
  | _ => refuse .notNumber

/-- A value that may be `null`. -/
def nullable {α : Type} (check : Value → Checked α) : Value → Checked (Option α)
  | .null => .ok none
  | v => (check v).map some

/-- The items of a list, each one checked; issues name the position. -/
def items {α : Type} (check : Value → Checked α) : Nat → List Value → Checked (List α)
  | _, [] => .ok []
  | i, v :: rest =>
    ((check v).under (.index i)).both (items check (i + 1) rest) |>.map fun (x, xs) => x :: xs

/-- A list. -/
def list {α : Type} (check : Value → Checked α) : Value → Checked (List α)
  | .list vs => items check 0 vs
  | _ => refuse .notList

/-- The members of an object of a named shape. -/
def members (shape : String) : Value → Checked (Assoc Value)
  | .object members => .ok members
  | _ => refuse (.notRecord shape)

/-- The member under the first of several names that occurs, with that name. -/
def named? (members : Assoc Value) (names : List String) : Option (String × Value) :=
  names.findSome? fun name => (Assoc.valueOf? members name).map fun v => (name, v)

/-- A field that must be given, under the first of its names that occurs. -/
def required {α : Type} (members : Assoc Value) (names : List String)
    (check : Value → Checked α) : Checked α :=
  match named? members names with
  | some (name, v) => (check v).under (.field name)
  | none => (refuse .missing).under (.field (names.headD ""))

/-- A field that may be left out. -/
def optional {α : Type} (members : Assoc Value) (names : List String) (usual : α)
    (check : Value → Checked α) : Checked α :=
  match named? members names with
  | some (name, v) => (check v).under (.field name)
  | none => .ok usual

end Checked

end SyncForm
