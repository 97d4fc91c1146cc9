import SyncForm.Number.Decimal

/-!
# Numbers with a given number of digits

`fixedText` writes a magnitude with a given number of places, `scientificText` with a given number
of places and an exponent, `generalText` with a given number of digits in whichever of the two
notations suits its size. The digits are those of the exact value, rounded to the nearest, a tie to
the even one.
-/

namespace SyncForm.Binary64

/-- A magnitude in units, counted in `10 ^ -places` and rounded. -/
def countPlaces (size : Nat) (places : Int) : Nat :=
  roundQuotient (size * Nat.pow 10 places.toNat) (unitsInOne * Nat.pow 10 (-places).toNat)

/-- Digits with zeros before them up to a length. -/
def padDigits (length : Nat) (digits : List Char) : List Char :=
  List.replicate (length - digits.length) '0' ++ digits

/-- The digits of a natural, at least a number of them. -/
def digitsOf (length n : Nat) : List Char :=
  padDigits length (Nat.toDigits 10 n)

/-- Digits with a point before the last `places` of them; a point with nothing behind it is written
only where asked. -/
def pointed (places : Nat) (keepPoint : Bool) (digits : List Char) : List Char :=
  let cut := digits.length - places
  if places = 0 then if keepPoint then digits ++ ['.'] else digits
  else digits.take cut ++ '.' :: digits.drop cut

/-- The most places that a number can fill: its least unit is `2 ^ -1074`. All further places hold
zeros, and so do all further digits. -/
def filledPlaces : Nat := 1074

/-- A magnitude with a number of places. -/
def fixedText (size places : Nat) (keepPoint : Bool) : List Char :=
  let filled := min places filledPlaces
  pointed filled keepPoint (digitsOf (filled + 1) (countPlaces size filled)) ++
    List.replicate (places - filled) '0'

/-- The first `places + 1` digits of a magnitude and the exponent of the first of them. -/
def leadingDigits (size places : Nat) : Nat × Int :=
  if size = 0 then (0, 0)
  else
    let first := leading size unitsInOne
    let digits := countPlaces size (places - first)
    if digits < Nat.pow 10 (places + 1) then (digits, first)
    else (Nat.pow 10 places, first + 1)

/-- The first digits of a magnitude with a point behind the first of them, and its exponent. -/
def mantissa (size places : Nat) (keepPoint : Bool) : List Char × Int :=
  let filled := min places filledPlaces
  let (digits, exponent) := leadingDigits size filled
  (pointed filled keepPoint (digitsOf (filled + 1) digits) ++ List.replicate (places - filled) '0',
    exponent)

/-- An exponent with its mark and sign, in two digits at least. -/
def exponentText (exponent : Int) : List Char :=
  'e' :: (if exponent < 0 then '-' else '+') :: digitsOf 2 exponent.natAbs

/-- A magnitude with a number of places and an exponent. -/
def scientificText (size places : Nat) (keepPoint : Bool) : List Char :=
  let (text, exponent) := mantissa size places keepPoint
  text ++ exponentText exponent

/-- A text without the zeros at its end, and without a point that stood before them. -/
def withoutZeros (text : List Char) : List Char :=
  if text.contains '.' then
    match text.reverse.dropWhile (· == '0') with
    | '.' :: rest => rest.reverse
    | rest => rest.reverse
  else text

/-- A magnitude with a number of digits: positional from `10 ^ -4` up to the size at which the
digits end before the point, else with an exponent. Zeros at the end are kept only where asked. -/
def generalText (size precision : Nat) (keepZeros : Bool) : List Char :=
  let places := max precision 1 - 1
  let (text, exponent) := mantissa size places keepZeros
  let trim (text : List Char) := if keepZeros then text else withoutZeros text
  if -4 ≤ exponent ∧ exponent ≤ places then
    trim (fixedText size (places - exponent).toNat keepZeros)
  else
    trim text ++ exponentText exponent

/-- A number by its sign and a text of its magnitude. -/
def signedText (x : Binary64) (text : Nat → List Char) : Bool × List Char :=
  match x with
  | nan => (false, "nan".toList)
  | infinity negative => (negative, "inf".toList)
  | finite negative scale fraction => (negative, text (magnitude scale fraction))

end SyncForm.Binary64
