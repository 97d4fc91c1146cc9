import SyncForm.Json.Printer
import SyncForm.Json.Reader
import SyncForm.Value.Basic

/-!
# Values and JSON documents

A document without half surrogates is a value and the other way round; a record is written as the
list of its fields.
-/

namespace SyncForm.Value

mutual

/-- The value of a document. -/
def ofDocument : Json.Document → Value
  | .null => null
  | .bool b => bool b
  | .int i => int i
  | .float x => float x
  | .text codes => text (Json.textOf codes)
  | .array items => list (ofItems items)
  | .object members => object (ofMembers members)

/-- The values of the items of an array. -/
def ofItems : List Json.Document → List Value
  | [] => []
  | item :: rest => ofDocument item :: ofItems rest

/-- The members of an object. -/
def ofMembers : List (List Nat × Json.Document) → List (String × Value)
  | [] => []
  | (name, value) :: rest => (Json.textOf name, ofDocument value) :: ofMembers rest

end

mutual

/-- The document of a value. -/
def toDocument : Value → Json.Document
  | null => .null
  | bool b => .bool b
  | int i => .int i
  | float x => .float x
  | text s => .text (Json.codesOf s)
  | list items => .array (toItems items)
  | object members => .object (toMembers members)
  | column ⟨ordinal, name, dataType, connected, payload⟩ =>
    .array [.int ordinal, toDocument name, toDocument dataType, .bool connected, toDocument payload]

/-- The documents of the items of a list. -/
def toItems : List Value → List Json.Document
  | [] => []
  | item :: rest => toDocument item :: toItems rest

/-- The members of an object. -/
def toMembers : List (String × Value) → List (List Nat × Json.Document)
  | [] => []
  | (name, value) :: rest => (Json.codesOf name, toDocument value) :: toMembers rest

end

end SyncForm.Value
