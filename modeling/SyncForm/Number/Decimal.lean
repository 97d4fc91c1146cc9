import SyncForm.Number.Binary64

/-!
# Decimal text of floating-point numbers

`ofDecimal` rounds `digits · 10 ^ exponent` to the nearest number. `shortest` goes back: of all
decimals that round to a number it picks those with the fewest digits, among them the nearest, and
of two equally near ones the even one. `render` writes these digits positionally for magnitudes from
`10 ^ -4` up to `10 ^ 16`, where a whole number keeps a final `.0`, and with an exponent of at least
two digits beyond.
-/

namespace SyncForm.Binary64

/-- The number of decimal digits of a natural; zero has none. -/
def digitCount (n : Nat) : Nat :=
  if n = 0 then 0 else (Nat.toDigits 10 n).length

/-- The number nearest to `digits · 10 ^ exponent`. Decimals beyond the range of every finite number
are settled by their length, so that no large power is computed for them. -/
def ofDecimal (negative : Bool) (digits : Nat) (exponent : Int) : Binary64 :=
  let point : Int := digitCount digits + exponent
  if digits = 0 || point < -330 then ofRank negative 0
  else if 310 < point then infinity negative
  else if exponent < 0 then ofRatio negative digits (Nat.pow 10 exponent.natAbs)
  else ofRatio negative (digits * Nat.pow 10 exponent.natAbs) 1

/-- A magnitude and the ends of the interval of reals that round to it, in quarters of a unit; the
ends belong to the interval when the significand is even. -/
structure Interval where
  low : Nat
  value : Nat
  high : Nat
  closed : Bool

/-- The interval of a positive number. At a power of two the gap below is half the gap above. -/
def intervalOf (scale : Fin 2047) (fraction : Fin 4503599627370496) : Interval :=
  let step := Nat.pow 2 (stepLog scale)
  let value := 4 * magnitude scale fraction
  let below := if fraction.val = 0 && 1 < scale.val then step else 2 * step
  { low := value - below
    value
    high := value + 2 * step
    closed := significand scale fraction % 2 == 0 }

/-- Whether `num / den` quarters of a unit lie in an interval. -/
def Interval.holds (i : Interval) (num den : Nat) : Bool :=
  if i.closed then i.low * den ≤ num && num ≤ i.high * den
  else i.low * den < num && num < i.high * den

/-- A decimal: an integer and the power of ten it counts. -/
structure Decimal where
  digits : Nat
  exponent : Int
  deriving DecidableEq

/-- The better of the two multiples of `10 ^ exponent` next to the value of an interval, if one of
them lies in it: the nearer one, of two equally near ones the even one. -/
def Interval.onGrid? (i : Interval) (exponent : Int) : Option Decimal :=
  let quarters := 4 * unitsInOne
  let up := Nat.pow 10 exponent.toNat
  let down := Nat.pow 10 (-exponent).toNat
  let floor := i.value * down / (quarters * up)
  let size (d : Nat) := d * up * quarters
  let offBelow := i.value * down - size floor
  let offAbove := size (floor + 1) - i.value * down
  let below := i.holds (size floor) down
  let above := i.holds (size (floor + 1)) down
  if below && above then
    let takeBelow := offBelow < offAbove || (offBelow == offAbove && floor % 2 == 0)
    some ⟨if takeBelow then floor else floor + 1, exponent⟩
  else if below then some ⟨floor, exponent⟩
  else if above then some ⟨floor + 1, exponent⟩
  else none

/-- The position of the first digit of a positive magnitude: the greatest `p` with `10 ^ p` at most
`num / den`. -/
def leading (num den : Nat) : Int :=
  if den ≤ num then (digitCount (num / den) : Int) - 1
  else -(digitCount ((den + num - 1) / num - 1) : Int)

/-- Drops the final zeros of a decimal; `fuel` bounds their number. -/
def Decimal.trim : Nat → Decimal → Decimal
  | 0, d => d
  | fuel + 1, d =>
    if d.digits ≠ 0 && d.digits % 10 == 0 then Decimal.trim fuel ⟨d.digits / 10, d.exponent + 1⟩
    else d

/-- The shortest decimal in an interval; seventeen digits always suffice. -/
def Interval.shortest (i : Interval) : Decimal :=
  let first := leading i.value (4 * unitsInOne)
  let found := (List.range 17).findSome? fun (n : Nat) => i.onGrid? (first - n)
  (found.getD ⟨0, 0⟩).trim 17

/-- The shortest decimal that rounds to a magnitude. -/
def shortest (scale : Fin 2047) (fraction : Fin 4503599627370496) : Decimal :=
  if magnitude scale fraction = 0 then ⟨0, 0⟩ else (intervalOf scale fraction).shortest

/-- The digits of a decimal with its point: positional when the point falls less than four places
before the first digit and at most sixteen behind it, else with an exponent. -/
def Decimal.write (d : Decimal) : List Char :=
  let digits := Nat.toDigits 10 d.digits
  let point : Int := digits.length + d.exponent
  if point ≤ -4 || 16 < point then
    let power := point - 1
    let size := Nat.toDigits 10 power.natAbs
    let mantissa :=
      match digits with
      | [] => []
      | [c] => [c]
      | c :: rest => c :: '.' :: rest
    let sign := if power < 0 then '-' else '+'
    mantissa ++ 'e' :: sign :: (if size.length < 2 then '0' :: size else size)
  else if point ≤ 0 then
    '0' :: '.' :: (List.replicate point.natAbs '0' ++ digits)
  else if (digits.length : Int) ≤ point then
    digits ++ List.replicate (point.natAbs - digits.length) '0' ++ ['.', '0']
  else
    digits.take point.natAbs ++ '.' :: digits.drop point.natAbs

/-- The text of a number. -/
def render : Binary64 → String
  | nan => "nan"
  | infinity negative => if negative then "-inf" else "inf"
  | finite negative scale fraction =>
    let body :=
      if magnitude scale fraction = 0 then ['0', '.', '0'] else (shortest scale fraction).write
    String.ofList (if negative then '-' :: body else body)

end SyncForm.Binary64
