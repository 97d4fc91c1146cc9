import SyncForm.Fault
import SyncForm.Text.Numeral

/-!
# Values as numbers and as sequences

`toInteger` and `toReal` convert a value to a number, a text included; `toSequence` lists what a
value is made of: the items of a list, the names of an object, the characters of a text.
-/

namespace SyncForm.Value

/-- The integer that a value denotes; a fraction is cut off towards zero. -/
def toInteger : Value → Except Fault Int
  | bool b => .ok (if b then 1 else 0)
  | int i => .ok i
  | float x =>
    match x with
    | .nan => .error .nanHasNoInteger
    | .infinity _ => .error .infinityHasNoInteger
    | .finite _ _ _ => .ok (x.truncate?.getD 0)
  | text s =>
    match Text.readWhole s with
    | .value i => .ok i
    | .invalid => .error (.notIntegerText s)
    | .tooLong count => .error (.tooManyDigits count)
  | v => .error (.notIntegral v.kind)

/-- The floating-point number nearest to what a value denotes. -/
def toReal : Value → Except Fault Binary64
  | bool b => .ok (.ofInt (if b then 1 else 0))
  | int i =>
    match Binary64.ofInt i with
    | .infinity _ => .error .integerTooLarge
    | x => .ok x
  | float x => .ok x
  | text s =>
    match Text.readReal s with
    | some x => .ok x
    | none => .error (.notFloatText s)
  | v => .error (.notReal v.kind)

/-- What a value is made of. -/
def toSequence : Value → Except Fault (List Value)
  | list items => .ok items
  | object members => .ok (members.map fun kv => text kv.1)
  | text s => .ok (s.toList.map fun c => text (String.singleton c))
  | v => .error (.notIterable v.kind)

/-- Whether a value is made of nothing that could be listed: `null`, a truth value, a number or a
record. -/
def isAtom : Value → Bool
  | list _ => false
  | object _ => false
  | text _ => false
  | _ => true

/-- All but the atoms are made of something. -/
theorem toSequence_eq_error {v : Value} {fault : Fault} :
    v.toSequence = .error fault ↔ v.isAtom = true ∧ fault = .notIterable v.kind := by
  cases v <;> simp [toSequence, isAtom, eq_comm]

/-- The members of an object. -/
def toMembersOf : Value → Except Fault (Assoc Value)
  | object members => .ok members
  | v => .error (.lacks v.kind "items")

end SyncForm.Value
