import SyncForm.Assoc
import SyncForm.Number.Decimal

/-!
# Field values

A form field may hold any JSON value, and the two column lists hold column records. An object keeps
its members in order and has no name twice. A text consists of characters; texts with half of a
surrogate pair in them are to be found in documents only (`Json.Document`). `isTrue` is the test for
an empty value, `same` and `equals` compare values: numbers compare across whole, floating-point and
truth values, objects compare without regard to the order of their members.
-/

namespace SyncForm

/-- One row of a column list. `connected` has a meaning pairwise only: the rows at one position of
both lists are connected when both are flagged. -/
structure ColumnOf (α : Type) where
  ordinal : Int
  name : α
  dataType : α
  connected : Bool
  payload : α

/-- A value that a field may hold. -/
inductive Value where
  | null
  | bool (b : Bool)
  | int (i : Int)
  | float (x : Binary64)
  | text (s : String)
  | list (items : List Value)
  | object (members : List (String × Value))
  | column (record : ColumnOf Value)

/-- A row of a column list. -/
abbrev Column := ColumnOf Value

instance : Inhabited Value := ⟨.null⟩

namespace Value

/-- Whether a value counts as given: `null`, `false`, zeros, the empty text, list and object do
not. -/
def isTrue : Value → Bool
  | null => false
  | bool b => b
  | int i => i != 0
  | float x => !x.isZero
  | text s => !s.isEmpty
  | list items => !items.isEmpty
  | object members => !members.isEmpty
  | column _ => true

/-- A value, or another one where it does not count as given. -/
def orElse (v w : Value) : Value :=
  if v.isTrue then v else w

/-- The whole number that an integer or a truth value is. -/
def whole? : Value → Option Int
  | bool b => some (if b then 1 else 0)
  | int i => some i
  | _ => none

/-- Equality of numbers, across their kinds. -/
def sameNumber : Value → Value → Bool
  | float x, float y => x.eq y || (x == .nan && y == .nan)
  | float x, v => match v.whole? with
    | some i => x.eqInt i
    | none => false
  | v, float y => match v.whole? with
    | some i => y.eqInt i
    | none => false
  | v, w => match v.whole?, w.whole? with
    | some i, some j => i == j
    | _, _ => false

mutual

/-- Equality of stored values, `nan` with itself included. -/
def same : Value → Value → Bool
  | null, null => true
  | text a, text b => a == b
  | list a, list b => sameItems a b
  | object a, object b => a.length == b.length && sameMembers a b
  | column ⟨o, n, t, c, p⟩, column b =>
    o == b.ordinal && same n b.name && same t b.dataType && c == b.connected && same p b.payload
  | a, b => sameNumber a b

/-- Equality of lists, item by item. -/
def sameItems : List Value → List Value → Bool
  | [], [] => true
  | a :: as, b :: bs => same a b && sameItems as bs
  | _, _ => false

/-- Whether every member of one object has an equal one in another. -/
def sameMembers : List (String × Value) → List (String × Value) → Bool
  | [], _ => true
  | (k, v) :: rest, b =>
    (match Assoc.valueOf? b k with
      | some w => same v w
      | none => false) && sameMembers rest b

end

/-- Equality as a comparison sees it: `nan` itself equals nothing. -/
def equals (a b : Value) : Bool :=
  match a, b with
  | float x, float y => x.eq y
  | _, _ => same a b

/-- Whether a value is a given text. -/
def isText (v : Value) (s : String) : Bool :=
  match v with
  | text t => t == s
  | _ => false

/-- A member of an object; other values have none. -/
def member? (v : Value) (key : String) : Option Value :=
  match v with
  | object members => Assoc.valueOf? members key
  | _ => none

/-- The word by which messages name the kind of a value. -/
def kind : Value → String
  | null => "NoneType"
  | bool _ => "bool"
  | int _ => "int"
  | float _ => "float"
  | text _ => "str"
  | list _ => "list"
  | object _ => "dict"
  | column _ => "ColumnRecord"

/-- Whether a value may be a key of a table. Only lists, objects and records may not. -/
def isKey : Value → Bool
  | list _ => false
  | object _ => false
  | column _ => false
  | _ => true

end Value

end SyncForm
