import SyncForm.Json.Document
import SyncForm.Text.Hex

/-!
# Writing JSON text

What is written is a list of code points as well. Both written forms are ASCII: every other code
point is escaped, beyond the basic plane as a surrogate pair. `line` writes a document on one line,
`pretty` indents each level by two spaces and gives every item a line of its own; empty arrays and
objects stay closed up.

The marks are `0x22` and `0x5C` for the quote and the backslash, `0x2C` and `0x3A` for the comma and
the colon, `0x5B` and `0x5D` for brackets, `0x7B` and `0x7D` for braces.
-/

namespace SyncForm.Json

/-- The escape of a code unit. -/
def escapeUnit (n : Nat) : List Nat :=
  0x5C :: 0x75 :: codes (Text.hex 4 n)

/-- One code point between quotes. -/
def printCode (n : Nat) : List Nat :=
  if n = 0x22 then [0x5C, 0x22]
  else if n = 0x5C then [0x5C, 0x5C]
  else if n = 0xA then [0x5C, 0x6E]
  else if n = 0xD then [0x5C, 0x72]
  else if n = 0x9 then [0x5C, 0x74]
  else if n = 0xC then [0x5C, 0x66]
  else if n = 0x8 then [0x5C, 0x62]
  else if 0x20 ≤ n ∧ n ≤ 0x7E then [n]
  else if n < 0x10000 then escapeUnit n
  else escapeUnit (0xD800 + (n - 0x10000) / 0x400) ++ escapeUnit (0xDC00 + (n - 0x10000) % 0x400)

/-- A text with its quotes. -/
def printText (text : List Nat) : List Nat :=
  0x22 :: (text.flatMap printCode ++ [0x22])

/-- A floating-point number; the values that are no numbers have words of their own. -/
def printFloat : Binary64 → List Nat
  | .nan => codesOf "NaN"
  | .infinity negative => codesOf (if negative then "-Infinity" else "Infinity")
  | x => codesOf x.render

/-- A whole number. -/
def printInt (i : Int) : List Nat :=
  if i < 0 then 0x2D :: codes (Nat.toDigits 10 i.natAbs) else codes (Nat.toDigits 10 i.natAbs)

/-- How the parts of arrays and objects are set apart: what follows an opening bracket, a comma and
what stands before a closing bracket, at a given depth. -/
structure Style where
  opening : Nat → List Nat
  between : Nat → List Nat
  closing : Nat → List Nat

/-- Everything on one line, a space behind each comma. -/
def Style.line : Style :=
  { opening := fun _ => []
    between := fun _ => [0x2C, 0x20]
    closing := fun _ => [] }

/-- A line for each item, two spaces for each level. -/
def Style.pretty : Style :=
  let newline (depth : Nat) := 0xA :: List.replicate (2 * depth) 0x20
  { opening := fun depth => newline (depth + 1)
    between := fun depth => 0x2C :: newline (depth + 1)
    closing := newline }

mutual

/-- A document at a depth. -/
def Document.print (style : Style) (depth : Nat) : Document → List Nat
  | .null => codesOf "null"
  | .bool b => codesOf (if b then "true" else "false")
  | .int i => printInt i
  | .float x => printFloat x
  | .text text => printText text
  | .array [] => [0x5B, 0x5D]
  | .array (item :: items) =>
    0x5B :: (style.opening depth ++ item.print style (depth + 1) ++ printItems style depth items ++
      style.closing depth ++ [0x5D])
  | .object [] => [0x7B, 0x7D]
  | .object ((name, value) :: members) =>
    0x7B :: (style.opening depth ++ printText name ++ [0x3A, 0x20] ++
      value.print style (depth + 1) ++ printMembers style depth members ++ style.closing depth ++
      [0x7D])

/-- The items of an array behind the first. -/
def printItems (style : Style) (depth : Nat) : List Document → List Nat
  | [] => []
  | item :: items =>
    style.between depth ++ item.print style (depth + 1) ++ printItems style depth items

/-- The members of an object behind the first. -/
def printMembers (style : Style) (depth : Nat) : List (List Nat × Document) → List Nat
  | [] => []
  | (name, value) :: members =>
    style.between depth ++ printText name ++ [0x3A, 0x20] ++ value.print style (depth + 1) ++
      printMembers style depth members

end

/-- A document on one line. -/
def Document.line (d : Document) : List Nat :=
  d.print Style.line 0

/-- A document with a line for each item. -/
def Document.pretty (d : Document) : List Nat :=
  d.print Style.pretty 0

end SyncForm.Json
