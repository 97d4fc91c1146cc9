import SyncForm.Text.Quoted
import SyncForm.Value.Basic

/-!
# Values inside messages

`quoted` writes a value with its texts quoted, `plain` writes a text as it stands and every other
value quoted. Lists stand in brackets, objects in braces, and a record names its fields. An integer
is written with all its digits, and values may be nested to any depth: that an interpreter refuses
to write more than 4300 digits, or runs out of stack, is left out.
-/

namespace SyncForm.Value

/-- Joins written parts by a comma and a space. -/
def commaJoin : List String → String :=
  String.intercalate ", "

mutual

/-- A value with its texts quoted. -/
def quoted : Value → String
  | null => "None"
  | bool b => if b then "True" else "False"
  | int i => toString i
  | float x => x.render
  | text s => Text.quote s
  | list items => "[" ++ commaJoin (quotedItems items) ++ "]"
  | object members => "\x7b" ++ commaJoin (quotedMembers members) ++ "\x7d"
  | column ⟨ordinal, name, dataType, connected, payload⟩ =>
    "ColumnRecord(ordinal_hint=" ++ toString ordinal ++ ", name=" ++ quoted name ++
      ", data_type=" ++ quoted dataType ++ ", connected=" ++
      (if connected then "True" else "False") ++ ", raw_json=" ++ quoted payload ++ ")"

/-- Each item of a list. -/
def quotedItems : List Value → List String
  | [] => []
  | item :: rest => quoted item :: quotedItems rest

/-- Each member of an object with its name. -/
def quotedMembers : List (String × Value) → List String
  | [] => []
  | (name, value) :: rest => (Text.quote name ++ ": " ++ quoted value) :: quotedMembers rest

end

/-- A text as it stands, every other value quoted. -/
def plain : Value → String
  | text s => s
  | v => v.quoted

end SyncForm.Value
