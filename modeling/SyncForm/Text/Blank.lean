/-!
# Blank characters

The blanks are the white space of every script together with the four ASCII separators
(`0x1C`–`0x1F`). Two sets matter: `isBlank` decides whether a text holds anything at all, and
`isMargin`, which leaves the ASCII separators out, is what may stand around a number.
-/

namespace SyncForm.Text

/-- White space outside ASCII. -/
def wideBlanks : List Nat := [
  0x85, 0xA0, 0x1680, 0x2000, 0x2001, 0x2002, 0x2003, 0x2004, 0x2005, 0x2006, 0x2007, 0x2008,
  0x2009, 0x200A, 0x2028, 0x2029, 0x202F, 0x205F, 0x3000]

/-- What may stand before or after a number: tab, line feed, vertical tab, form feed, carriage
return, space and the white space outside ASCII. -/
def isMargin (c : Char) : Bool :=
  (0x9 ≤ c.toNat && c.toNat ≤ 0xD) || c == ' ' || wideBlanks.contains c.toNat

/-- White space, the ASCII separators included. -/
def isBlank (c : Char) : Bool :=
  isMargin c || (0x1C ≤ c.toNat && c.toNat ≤ 0x1F)

/-- Whether a text holds nothing but blanks. -/
def allBlank (s : String) : Bool :=
  s.toList.all isBlank

/-- Drops the characters of a class from both ends. -/
def trim (p : Char → Bool) (cs : List Char) : List Char :=
  ((cs.dropWhile p).reverse.dropWhile p).reverse

end SyncForm.Text
