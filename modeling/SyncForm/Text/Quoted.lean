import SyncForm.Text.Hex
import SyncForm.Text.Printable

/-!
# Quoted text

A text inside a message stands between single quotes, or between double quotes when it holds a
single quote and no double one. The backslash and the enclosing quote are escaped by a backslash;
line feed, carriage return and tab have letters of their own, and any other code point that does not
print, half of a surrogate pair included, is written in two, four or eight hexadecimal digits.
-/

namespace SyncForm.Text

/-- The quote that encloses a text, `0x27` or `0x22`: the double quote only where it saves
escaping. -/
def enclosing (codes : List Nat) : Nat :=
  if codes.contains 0x27 && !codes.contains 0x22 then 0x22 else 0x27

/-- One code point of a text enclosed by `mark`. -/
def quoteCode (mark n : Nat) : List Char :=
  if n == mark || n == 0x5C then ['\\', Char.ofNat n]
  else if n == 0xA then ['\\', 'n']
  else if n == 0xD then ['\\', 'r']
  else if n == 0x9 then ['\\', 't']
  else if isPrintable n then [Char.ofNat n]
  else if n < 0x100 then '\\' :: 'x' :: hex 2 n
  else if n < 0x10000 then '\\' :: 'u' :: hex 4 n
  else '\\' :: 'U' :: hex 8 n

/-- A list of code points as it stands in a message, its quotes included. -/
def quoteCodes (codes : List Nat) : String :=
  let mark := enclosing codes
  let quote := Char.ofNat mark
  String.ofList (quote :: (codes.flatMap (quoteCode mark) ++ [quote]))

/-- A text as it stands in a message, its quotes included. -/
def quote (s : String) : String :=
  quoteCodes (s.toList.map Char.toNat)

end SyncForm.Text
