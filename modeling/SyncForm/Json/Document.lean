import SyncForm.Number.Decimal

/-!
# JSON documents

A document keeps the members of an object in order and tells whole numbers from numbers with a
fraction or an exponent. A text is a list of code points rather than of characters, because half of
a surrogate pair may stand in it: as itself, or as the escape that spells it.
-/

namespace SyncForm.Json

/-- A JSON document. -/
inductive Document where
  | null
  | bool (b : Bool)
  | int (i : Int)
  | float (x : Binary64)
  | text (codes : List Nat)
  | array (items : List Document)
  | object (members : List (List Nat × Document))

/-- Writes a member: in its place if the name occurs, else at the end. -/
def putMember (members : List (List Nat × Document)) (name : List Nat) (value : Document) :
    List (List Nat × Document) :=
  match members with
  | [] => [(name, value)]
  | (k, v) :: rest => if k = name then (k, value) :: rest else (k, v) :: putMember rest name value

/-- The members that an object holds when members are written to those that it held before. -/
def mergeMembers (done members : List (List Nat × Document)) : List (List Nat × Document) :=
  members.foldl (fun held member => putMember held member.1 member.2) done

/-- The code points of a list of characters. -/
def codes (cs : List Char) : List Nat :=
  cs.map Char.toNat

/-- The code points of two lists of characters, side by side. -/
theorem codes_append (as bs : List Char) : codes (as ++ bs) = codes as ++ codes bs :=
  List.map_append

/-- The code point of a character comes first. -/
theorem codes_cons (c : Char) (cs : List Char) : codes (c :: cs) = c.toNat :: codes cs :=
  rfl

/-- The code points of a text. -/
def codesOf (s : String) : List Nat :=
  codes s.toList

/-- The text of a list of code points; no character stands for half of a surrogate pair. -/
def textOf (codes : List Nat) : String :=
  String.ofList (codes.map Char.ofNat)

/-- Members with their names spelled out. -/
def named (members : List (String × Document)) : List (List Nat × Document) :=
  members.map fun (name, value) => (codesOf name, value)

end SyncForm.Json
