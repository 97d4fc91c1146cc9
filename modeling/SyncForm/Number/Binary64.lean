/-!
# Floating-point numbers of 64 bits

A finite number is `±significand · 2 ^ exponent` with at most 53 significant bits. It is kept as the
scale and the fraction it is interchanged by, so that every triple is a number and no number has two
spellings; the two zeros are different values. All arithmetic is exact on integers: `units` measures
a number in the smallest positive one, `2 ^ -1074`, and `ofRatio` rounds a quotient to the nearest
number, a tie to the even one.
-/

namespace SyncForm

/-- A floating-point number of 64 bits. -/
inductive Binary64 where
  | nan
  | infinity (negative : Bool)
  | finite (negative : Bool) (scale : Fin 2047) (fraction : Fin 4503599627370496)
  deriving DecidableEq

namespace Binary64

/-- The number of fractions of one scale, `2 ^ 52`. -/
def fractions : Nat := 4503599627370496

/-- The number of units in one, `2 ^ 1074`. -/
def unitsInOne : Nat := Nat.pow 2 1074

/-- The integer multiplied by a power of two in a number of the given scale. -/
def significand (scale : Fin 2047) (fraction : Fin 4503599627370496) : Nat :=
  if scale.val = 0 then fraction.val else fractions + fraction.val

/-- The units that one step of the significand is worth, as a power of two. -/
def stepLog (scale : Fin 2047) : Nat :=
  scale.val - 1

/-- The magnitude of a finite number in units of `2 ^ -1074`. -/
def magnitude (scale : Fin 2047) (fraction : Fin 4503599627370496) : Nat :=
  significand scale fraction * Nat.pow 2 (stepLog scale)

/-- A finite number in units of `2 ^ -1074`. -/
def units? : Binary64 → Option Int
  | finite negative scale fraction =>
    let size : Int := magnitude scale fraction
    some (if negative then -size else size)
  | _ => none

/-- The magnitudes in ascending order: number `n` is the one whose scale and fraction are the
quotient and remainder of `n`; past the last one lies infinity. -/
def ofRank (negative : Bool) (rank : Nat) : Binary64 :=
  if h : rank / 4503599627370496 < 2047 then
    finite negative ⟨rank / 4503599627370496, h⟩
      ⟨rank % 4503599627370496, Nat.mod_lt _ (by decide)⟩
  else infinity negative

/-- The quotient of two naturals rounded to the nearest natural, a tie to the even one. -/
def roundQuotient (num den : Nat) : Nat :=
  let q := num / den
  let r := num % den
  if 2 * r < den || (2 * r == den && q % 2 == 0) then q else q + 1

/-- The number nearest to `num / den`, a tie going to the even significand. The quotient is brought
below 53 bits by a power of two before it is rounded; a carry out of the rounding moves on to the
next rank by itself. -/
def ofRatio (negative : Bool) (num den : Nat) : Binary64 :=
  let scaled := num * unitsInOne
  let shift := (scaled / den).log2 + 1 - 53
  ofRank negative (shift * fractions + roundQuotient scaled (den * Nat.pow 2 shift))

/-- Positive zero. -/
def zero : Binary64 := finite false 0 0

/-- The number nearest to an integer. -/
def ofInt (i : Int) : Binary64 :=
  ofRatio (i < 0) i.natAbs 1

/-- Whether a number is a zero of either sign. -/
def isZero (x : Binary64) : Bool :=
  x.units? == some 0

/-- The order of the extended line, on which `nan` has no place. -/
def lt : Binary64 → Binary64 → Bool
  | nan, _ => false
  | _, nan => false
  | infinity true, infinity true => false
  | infinity true, _ => true
  | _, infinity true => false
  | infinity false, _ => false
  | _, infinity false => true
  | x, y =>
    match x.units?, y.units? with
    | some a, some b => a < b
    | _, _ => false

/-- Numeric equality: the two zeros are equal and `nan` differs from itself. -/
def eq : Binary64 → Binary64 → Bool
  | infinity a, infinity b => a == b
  | x, y =>
    match x.units?, y.units? with
    | some a, some b => a == b
    | _, _ => false

/-- Numeric equality with an integer, without rounding either. -/
def eqInt (x : Binary64) (i : Int) : Bool :=
  x.units? == some (i * unitsInOne)

/-- The integer part of a finite number, towards zero. -/
def truncate? (x : Binary64) : Option Int :=
  x.units?.map fun u => u.tdiv unitsInOne

/-- The sum, rounded to the nearest number. -/
def add : Binary64 → Binary64 → Binary64
  | nan, _ => nan
  | _, nan => nan
  | infinity a, infinity b => if a == b then infinity a else nan
  | infinity a, _ => infinity a
  | _, infinity b => infinity b
  | finite a s f, finite b t g =>
    match (finite a s f).units?, (finite b t g).units? with
    | some u, some v =>
      if u + v = 0 then finite (a && b) 0 0 else ofRatio (u + v < 0) (u + v).natAbs unitsInOne
    | _, _ => nan

end Binary64

end SyncForm
