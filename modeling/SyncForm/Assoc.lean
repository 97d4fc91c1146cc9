/-!
# Keyed lists in order of insertion

An `Assoc α` lists keys with what they hold, in the order in which the keys were first written.
Writing a held key keeps its place. `valueOf?_put` and `keys_put` say what `put` does to what the
keys hold and to their order.
-/

namespace SyncForm

/-- Keys and what they hold, in order of insertion. -/
abbrev Assoc (α : Type) := List (String × α)

namespace Assoc

variable {α : Type}

/-- What a key holds. -/
def valueOf? : Assoc α → String → Option α
  | [], _ => none
  | (k, v) :: rest, key => if k = key then some v else valueOf? rest key

/-- Whether a key is held. -/
def holds (a : Assoc α) (key : String) : Bool :=
  (valueOf? a key).isSome

/-- Writes a key: in its place if it is held, else at the end. -/
def put : Assoc α → String → α → Assoc α
  | [], key, value => [(key, value)]
  | (k, v) :: rest, key, value =>
    if k = key then (k, value) :: rest else (k, v) :: put rest key value

/-- Writes several keys in order. -/
def putAll (a b : Assoc α) : Assoc α :=
  b.foldl (fun acc kv => put acc kv.1 kv.2) a

/-- Changes what a key holds, if it is held. -/
def adjust (a : Assoc α) (key : String) (f : α → α) : Assoc α :=
  a.map fun kv => if kv.1 = key then (kv.1, f kv.2) else kv

/-- The keys in order. -/
def keys (a : Assoc α) : List String :=
  a.map (·.1)

/-- Writing a key changes what that key holds and nothing else. -/
theorem valueOf?_put (a : Assoc α) (key : String) (value : α) (other : String) :
    valueOf? (put a key value) other = if key = other then some value else valueOf? a other := by
  induction a with
  | nil => simp [put, valueOf?]
  | cons kv rest ih => grind [put, valueOf?]

/-- Changing a key changes what that key holds and nothing else. -/
theorem valueOf?_adjust (a : Assoc α) (key : String) (f : α → α) (other : String) :
    valueOf? (adjust a key f) other =
      if key = other then (valueOf? a other).map f else valueOf? a other := by
  induction a with
  | nil => simp [adjust, valueOf?]
  | cons kv rest ih =>
    simp only [adjust, List.map_cons] at ih ⊢
    grind [valueOf?]

/-- A key is listed just if it is held. -/
theorem mem_keys_iff (a : Assoc α) (key : String) : key ∈ keys a ↔ holds a key = true := by
  induction a with
  | nil => simp [keys, holds, valueOf?]
  | cons kv rest ih => grind [keys, holds, valueOf?]

/-- Writing a key keeps the order of the keys; a new key comes last. -/
theorem keys_put (a : Assoc α) (key : String) (value : α) :
    keys (put a key value) = if holds a key then keys a else keys a ++ [key] := by
  induction a with
  | nil => simp [put, keys, holds, valueOf?]
  | cons kv rest ih => grind [put, keys, holds, valueOf?]

/-- Changing what a key holds leaves the keys. -/
theorem keys_adjust (a : Assoc α) (key : String) (f : α → α) : keys (adjust a key f) = keys a := by
  simp only [keys, adjust, List.map_map]
  exact List.map_congr_left fun kv _ => by dsimp only [Function.comp]; split <;> rfl

end Assoc

end SyncForm
