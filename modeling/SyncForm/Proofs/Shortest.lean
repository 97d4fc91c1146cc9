import Mathlib.Algebra.Order.Field.Power
import Mathlib.Algebra.Order.Floor.Semiring
import Mathlib.Data.Rat.Cast.Order
import Mathlib.Tactic.FieldSimp
import Mathlib.Tactic.Linarith
import Mathlib.Tactic.NormNum
import Mathlib.Tactic.Positivity
import SyncForm.Proofs.Rounding

/-!
# The shortest decimal of a number

The digits that a number is written with lie in its interval (`shortest_within`): a grid of
seventeen digits is finer than the interval, so one of the two decimals next to the value lies in
it. And a decimal in the interval of a number, however its digits and its exponent are chosen, is
rounded to the number (`ofDecimal_of_within`).
-/

namespace SyncForm.Binary64

variable {scale : Fin 2047} {fraction : Fin 4503599627370496}

/-! ## Intervals of rationals -/

/-- An interval covers a rational number of quarters of a unit. -/
def Interval.Covers (i : Interval) (x : ℚ) : Prop :=
  (i.low ≤ x ∧ x ≤ i.high) ∧ (i.closed = true ∨ (i.low < x ∧ x < i.high))

/-- The number that a decimal is. -/
def Decimal.value (d : Decimal) : ℚ :=
  d.digits * 10 ^ d.exponent

/-- The quarters of a unit that a number is. -/
def quarters (x : ℚ) : ℚ :=
  4 * unitsInOne * x

/-- There are units in one. -/
theorem unitsInOne_pos : 0 < unitsInOne := by
  decide +kernel

/-- An interval holds a quotient just where it covers it. -/
theorem Interval.holds_iff {i : Interval} {num den : Nat} (hden : 0 < den) :
    i.holds num den = true ↔ i.Covers (num / den) := by
  have hpos : (0 : ℚ) < den := Nat.cast_pos.2 hden
  unfold holds Covers
  rw [le_div_iff₀ hpos, div_le_iff₀ hpos, lt_div_iff₀ hpos, div_lt_iff₀ hpos]
  norm_cast
  cases i.closed
  · simp only [Bool.false_eq_true, if_false, Bool.and_eq_true, decide_eq_true_eq, false_or]
    omega
  · simp

/-- A power of ten is a quotient of two natural ones. -/
theorem ten_zpow (e : Int) :
    (10 : ℚ) ^ e = ((10 ^ e.toNat : Nat) : ℚ) / ((10 ^ (-e).toNat : Nat) : ℚ) := by
  rcases le_total 0 e with h | h
  · obtain ⟨n, rfl⟩ := Int.eq_ofNat_of_zero_le h
    simp
  · obtain ⟨n, hn⟩ := Int.eq_ofNat_of_zero_le (neg_nonneg.2 h)
    obtain rfl : e = -n := by omega
    simp

/-- A decimal is in an interval. -/
def Decimal.Within (d : Decimal) (i : Interval) : Prop :=
  i.Covers (quarters d.value)

/-- What an interval holds of a grid is within it. -/
theorem within_of_holds {i : Interval} {digits : Nat} {e : Int}
    (h : i.holds (digits * 10 ^ e.toNat * (4 * unitsInOne)) (10 ^ (-e).toNat) = true) :
    Decimal.Within ⟨digits, e⟩ i := by
  have hcovers := (Interval.holds_iff (Nat.pow_pos (by decide))).1 h
  unfold Decimal.Within quarters Decimal.value
  dsimp only
  rw [ten_zpow]
  convert hcovers using 1
  push_cast
  ring

/-- A decimal that is found on a grid is within the interval. -/
theorem within_of_onGrid? {i : Interval} {e : Int} {d : Decimal} (h : i.onGrid? e = some d) :
    d.Within i := by
  unfold Interval.onGrid? at h
  dsimp only at h
  generalize i.value * Nat.pow 10 (-e).toNat / (4 * unitsInOne * Nat.pow 10 e.toNat) = floor at h
  split at h
  · next hboth =>
    obtain ⟨hbelow, habove⟩ := Bool.and_eq_true_iff.1 hboth
    cases h
    split
    · exact within_of_holds hbelow
    · exact within_of_holds habove
  · split at h
    · next hbelow =>
      cases h
      exact within_of_holds hbelow
    · split at h
      · next habove =>
        cases h
        exact within_of_holds habove
      · cases h

/-- On a grid that is finer than an interval a decimal is found. -/
theorem exists_onGrid? {i : Interval} {e : Int} (hlow : i.low < i.value) (hhigh : i.value < i.high)
    (hfine : quarters (10 ^ e) < i.high - i.low) : ∃ d, i.onGrid? e = some d := by
  have hdown : 0 < 10 ^ (-e).toNat := Nat.pow_pos (by decide)
  have hup : 0 < 4 * unitsInOne * 10 ^ e.toNat :=
    Nat.mul_pos (Nat.mul_pos (by decide) unitsInOne_pos) (Nat.pow_pos (by decide))
  have hgrid (n : Nat) : ((n * 10 ^ e.toNat * (4 * unitsInOne) : Nat) : ℚ) /
      ((10 ^ (-e).toNat : Nat) : ℚ) = n * quarters (10 ^ e) := by
    rw [quarters, ten_zpow]
    push_cast
    ring
  obtain ⟨floor, hfloor⟩ : ∃ n, n = i.value * 10 ^ (-e).toNat / (4 * unitsInOne * 10 ^ e.toNat) :=
    ⟨_, rfl⟩
  -- The value lies between two points of the grid that are closer to each other than the ends.
  have hbelow : floor * quarters (10 ^ e) ≤ i.value := by
    rw [← hgrid, div_le_iff₀ (Nat.cast_pos.2 hdown)]
    have hle := Nat.div_mul_le_self (i.value * 10 ^ (-e).toNat) (4 * unitsInOne * 10 ^ e.toNat)
    rw [← hfloor, ← Nat.mul_assoc, Nat.mul_right_comm] at hle
    exact_mod_cast hle
  have habove : i.value < ((floor + 1 : Nat) : ℚ) * quarters (10 ^ e) := by
    rw [← hgrid, lt_div_iff₀ (Nat.cast_pos.2 hdown)]
    have hlt := Nat.lt_div_mul_add (a := i.value * 10 ^ (-e).toNat) hup
    rw [← hfloor, ← Nat.succ_mul, ← Nat.mul_assoc, Nat.mul_right_comm] at hlt
    exact_mod_cast hlt
  have hin (x : ℚ) (hx : i.low < x) (hx' : x < i.high) : i.Covers x :=
    ⟨⟨hx.le, hx'.le⟩, .inr ⟨hx, hx'⟩⟩
  have hsome : i.holds (floor * 10 ^ e.toNat * (4 * unitsInOne)) (10 ^ (-e).toNat) = true ∨
      i.holds ((floor + 1) * 10 ^ e.toNat * (4 * unitsInOne)) (10 ^ (-e).toNat) = true := by
    rw [Interval.holds_iff hdown, Interval.holds_iff hdown, hgrid, hgrid]
    by_contra hnone
    push Not at hnone
    have hleast : floor * quarters (10 ^ e) ≤ i.low := by
      by_contra hmore
      have hV : (i.value : ℚ) < i.high := Nat.cast_lt.2 hhigh
      exact hnone.1 (hin _ (by linarith) (by linarith))
    have hmost : i.high ≤ ((floor + 1 : Nat) : ℚ) * quarters (10 ^ e) := by
      by_contra hless
      have hV : (i.low : ℚ) < i.value := Nat.cast_lt.2 hlow
      exact hnone.2 (hin _ (by linarith) (by linarith))
    push_cast at hmost
    linarith
  unfold Interval.onGrid?
  dsimp only
  simp only [Nat.pow_eq, ← hfloor]
  generalize i.holds (floor * 10 ^ e.toNat * (4 * unitsInOne)) (10 ^ (-e).toNat) = below at *
  generalize i.holds ((floor + 1) * 10 ^ e.toNat * (4 * unitsInOne)) (10 ^ (-e).toNat) = above at *
  rcases hsome with rfl | rfl
  · cases above <;> exact ⟨_, rfl⟩
  · cases below <;> exact ⟨_, rfl⟩

/-! ## The first digit -/

/-- A natural has as many digits as the least power of ten above it. -/
theorem lt_pow_digitCount (n : Nat) : n < 10 ^ digitCount n := by
  unfold digitCount
  split
  · next hzero =>
    rw [hzero]
    decide
  · exact (Nat.length_toDigits_le_iff (by decide) Nat.length_toDigits_pos).1 le_rfl

/-- A natural that is not zero is at least the power of ten with as many zeros as it has further
digits. -/
theorem pow_le_of_digitCount {n k : Nat} (h : digitCount n = k + 1) : 10 ^ k ≤ n := by
  unfold digitCount at h
  split at h
  · cases h
  · next hpos =>
    cases k with
    | zero => exact Nat.pos_of_ne_zero hpos
    | succ k =>
      refine Nat.le_of_not_lt fun hlt => ?_
      have := (Nat.length_toDigits_le_iff (by decide) (Nat.succ_pos k)).2 hlt
      omega

/-- A natural that is not zero has a digit. -/
theorem exists_digitCount {n : Nat} (hn : 0 < n) : ∃ k, digitCount n = k + 1 := by
  refine Nat.exists_eq_succ_of_ne_zero fun hzero => ?_
  have := lt_pow_digitCount n
  rw [hzero] at this
  omega

/-- The first digit of a quotient stands at a power of ten that is at most the quotient. -/
theorem pow_leading_le {num den : Nat} (hnum : 0 < num) (hden : 0 < den) :
    (10 : ℚ) ^ leading num den ≤ num / den := by
  unfold leading
  split
  · next hle =>
    obtain ⟨k, hk⟩ := exists_digitCount (Nat.div_pos hle hden)
    have hpow : 10 ^ k * den ≤ num :=
      (Nat.mul_le_mul_right den (pow_le_of_digitCount hk)).trans (Nat.div_mul_le_self num den)
    rw [hk, Nat.cast_succ, add_sub_cancel_right, zpow_natCast, le_div_iff₀ (Nat.cast_pos.2 hden)]
    exact_mod_cast hpow
  · next hlt =>
    have hceil := Nat.lt_div_mul_add (a := den + num - 1) hnum
    have hone : 1 ≤ (den + num - 1) / num := (Nat.one_le_div_iff hnum).2 (by omega)
    have hcount := lt_pow_digitCount ((den + num - 1) / num - 1)
    generalize digitCount ((den + num - 1) / num - 1) = t at *
    generalize (den + num - 1) / num = q at *
    have hle : den ≤ num * 10 ^ t := by
      have hq : q * num ≤ 10 ^ t * num := Nat.mul_le_mul_right num (by omega)
      rw [Nat.mul_comm num]
      omega
    rw [zpow_neg, zpow_natCast, le_div_iff₀ (Nat.cast_pos.2 hden), inv_mul_le_iff₀ (by positivity)]
    rw [mul_comm]
    exact_mod_cast hle

/-! ## The digits of a number -/

/-- The interval of a positive number has the number inside, and is wider than the number is at its
seventeenth digit. -/
theorem intervalOf_wide (h : magnitude scale fraction ≠ 0) :
    let i := intervalOf scale fraction
    0 < i.low ∧ i.low < i.value ∧ i.value < i.high ∧
      i.value + 10 ^ 16 * i.low < 10 ^ 16 * i.high := by
  obtain ⟨hm, hmin⟩ := significand_bounds scale fraction
  have hscale : 1 < scale.val ↔ 0 < stepLog scale := by unfold stepLog; omega
  unfold magnitude at h
  simp only [intervalOf, magnitude, Bool.and_eq_true, decide_eq_true_eq, hscale]
  rw [Nat.pow_eq] at *
  generalize stepLog scale = k at *
  generalize significand scale fraction = m at *
  have hstep := Nat.two_pow_pos k
  have hleast : 1 * 2 ^ k ≤ m * 2 ^ k :=
    Nat.mul_le_mul_right _ (Nat.pos_of_ne_zero fun hzero => h (by rw [hzero, Nat.zero_mul]))
  have hmost : m * 2 ^ k ≤ (2 ^ 53 - 1) * 2 ^ k := Nat.mul_le_mul_right _ (by omega)
  split
  · next hbelow =>
    obtain rfl : 2 ^ 52 = m := by rw [← hmin hbelow.2, hbelow.1, Nat.add_zero]
    omega
  · omega

/-- Dropping final zeros leaves the number that a decimal is. -/
theorem Decimal.value_trim (fuel : Nat) (d : Decimal) : (d.trim fuel).value = d.value := by
  induction fuel generalizing d with
  | zero => rfl
  | succ fuel ih =>
    unfold trim
    split
    · next hzero =>
      simp only [Bool.and_eq_true, beq_iff_eq] at hzero
      obtain ⟨n, hn⟩ : ∃ n, d.digits = n * 10 := ⟨d.digits / 10, by omega⟩
      rw [ih, value, value, hn, Nat.mul_div_cancel n (by decide), zpow_add_one₀ (by norm_num)]
      push_cast
      ring
    · rfl

/-- The digits of a positive number are within its interval. -/
theorem shortest_within (h : magnitude scale fraction ≠ 0) :
    (shortest scale fraction).Within (intervalOf scale fraction) := by
  obtain ⟨hpos, hlow, hhigh, hwide⟩ := intervalOf_wide h
  unfold shortest
  rw [if_neg h]
  generalize intervalOf scale fraction = i at *
  have hunits : (0 : ℚ) < ((4 * unitsInOne : Nat) : ℚ) :=
    Nat.cast_pos.2 (Nat.mul_pos (by decide) unitsInOne_pos)
  have hfine : quarters (10 ^ (leading i.value (4 * unitsInOne) - (16 : Nat))) <
      i.high - i.low := by
    have hlead := @pow_leading_le i.value (4 * unitsInOne) (hpos.trans hlow)
      (Nat.mul_pos (by decide) unitsInOne_pos)
    rw [le_div_iff₀ hunits] at hlead
    have hwide : (i.value : ℚ) + 10 ^ 16 * i.low < 10 ^ 16 * i.high := by exact_mod_cast hwide
    rw [quarters, zpow_sub₀ (by norm_num), zpow_natCast, mul_div_assoc', div_lt_iff₀ (by norm_num)]
    push_cast at hlead
    linarith
  obtain ⟨d, hd⟩ := exists_onGrid? hlow hhigh hfine
  unfold Interval.shortest
  dsimp only
  unfold Decimal.Within
  rw [Decimal.value_trim]
  cases hfound : (List.range 17).findSome? fun n : Nat =>
      i.onGrid? (leading i.value (4 * unitsInOne) - n) with
  | none =>
    cases hd.symm.trans (List.findSome?_eq_none_iff.1 hfound 16 (List.mem_range.2 (by decide)))
  | some found =>
    obtain ⟨n, -, hn⟩ := List.exists_of_findSome?_eq_some hfound
    exact within_of_onGrid? hn

/-! ## Reading the digits back -/

/-- An interval ends below 55 bits of its step. -/
theorem high_lt {n : Nat} (hn : stepLog scale ≤ n) :
    (intervalOf scale fraction).high < 2 ^ 55 * 2 ^ n := by
  obtain ⟨hm, -⟩ := significand_bounds scale fraction
  simp only [intervalOf, magnitude, Nat.pow_eq]
  generalize stepLog scale = k at *
  generalize significand scale fraction = m at *
  have hstep := Nat.pow_le_pow_right Nat.two_pos hn
  have hmost : m * 2 ^ k ≤ (2 ^ 53 - 1) * 2 ^ k := Nat.mul_le_mul_right _ (by omega)
  have hpos := Nat.two_pow_pos k
  omega

/-- A decimal is not negative. -/
theorem Decimal.value_nonneg (d : Decimal) : 0 ≤ d.value := by
  unfold value
  positivity

/-- The point of a decimal is that of a power of ten above it. -/
theorem Decimal.value_lt (d : Decimal) :
    d.value < 10 ^ ((digitCount d.digits : Int) + d.exponent) := by
  rw [value, zpow_add₀ (by norm_num), zpow_natCast]
  have hdigits : ((d.digits : Nat) : ℚ) < ((10 ^ digitCount d.digits : Nat) : ℚ) :=
    Nat.cast_lt.2 (lt_pow_digitCount d.digits)
  push_cast at hdigits
  exact mul_lt_mul_of_pos_right hdigits (by positivity)

/-- A decimal is at least the power of ten of its first digit. -/
theorem Decimal.le_value {d : Decimal} (h : d.digits ≠ 0) :
    10 ^ ((digitCount d.digits : Int) + d.exponent - 1) ≤ d.value := by
  obtain ⟨k, hk⟩ := exists_digitCount (Nat.pos_of_ne_zero h)
  have hdigits : ((10 ^ k : Nat) : ℚ) ≤ ((d.digits : Nat) : ℚ) :=
    Nat.cast_le.2 (pow_le_of_digitCount hk)
  have hpoint : ((k + 1 : Nat) : Int) + d.exponent - 1 = k + d.exponent := by
    push_cast
    ring
  rw [hk, hpoint, value, zpow_add₀ (by norm_num), zpow_natCast]
  push_cast at hdigits
  exact mul_le_mul_of_nonneg_right hdigits (by positivity)

/-- A decimal within the interval of a positive number has digits, and is at least a quarter of a
unit. -/
theorem Decimal.Within.positive {d : Decimal} (h : magnitude scale fraction ≠ 0)
    (hd : d.Within (intervalOf scale fraction)) : 1 ≤ quarters d.value ∧ d.digits ≠ 0 := by
  have hlow : 1 ≤ quarters d.value :=
    le_trans (by exact_mod_cast (intervalOf_wide h).1) hd.1.1
  refine ⟨hlow, fun hzero => ?_⟩
  rw [quarters, value, hzero, Nat.cast_zero, zero_mul, mul_zero] at hlow
  exact absurd hlow (by norm_num)

/-- A decimal within the interval of a positive number is rounded to the number. -/
theorem ofDecimal_of_within (negative : Bool) {d : Decimal} (h : magnitude scale fraction ≠ 0)
    (hd : d.Within (intervalOf scale fraction)) :
    ofDecimal negative d.digits d.exponent = finite negative scale fraction := by
  have hunits : (0 : ℚ) < 4 * unitsInOne :=
    mul_pos (by norm_num) (Nat.cast_pos.2 unitsInOne_pos)
  obtain ⟨hlow, hdigits⟩ := hd.positive h
  have hhigh : quarters d.value < ((2 ^ 55 * 2 ^ 2045 : Nat) : ℚ) :=
    lt_of_le_of_lt hd.1.2 (Nat.cast_lt.2 (high_lt (by unfold stepLog; omega)))
  have hleast : -330 ≤ (digitCount d.digits : Int) + d.exponent := by
    by_contra hless
    have hpow : (10 : ℚ) ^ ((digitCount d.digits : Int) + d.exponent) ≤ 10 ^ (-(331 : Nat) : Int) :=
      zpow_le_zpow_right₀ (by norm_num) (by omega)
    have hsmall : ((4 * unitsInOne : Nat) : ℚ) ≤ ((10 ^ 331 : Nat) : ℚ) :=
      Nat.cast_le.2 (by decide +kernel)
    rw [zpow_neg, zpow_natCast, ← one_div] at hpow
    have hvalue := (lt_div_iff₀' (by positivity)).1 (d.value_lt.trans_le hpow)
    have hless := mul_le_mul_of_nonneg_right hsmall d.value_nonneg
    rw [Nat.cast_mul, Nat.cast_pow] at hless
    exact absurd (hlow.trans hless) (not_le.2 hvalue)
  have hmost : (digitCount d.digits : Int) + d.exponent ≤ 310 := by
    by_contra hmore
    have hpow : (10 : ℚ) ^ ((310 : Nat) : Int) ≤
        10 ^ ((digitCount d.digits : Int) + d.exponent - 1) :=
      zpow_le_zpow_right₀ (by norm_num) (by omega)
    have hlarge : ((2 ^ 55 * 2 ^ 2045 : Nat) : ℚ) ≤ ((4 * unitsInOne * 10 ^ 310 : Nat) : ℚ) :=
      Nat.cast_le.2 (by decide +kernel)
    rw [zpow_natCast] at hpow
    have hvalue := mul_le_mul_of_nonneg_left (hpow.trans (Decimal.le_value hdigits)) hunits.le
    rw [Nat.cast_mul _ (10 ^ 310), Nat.cast_mul 4, Nat.cast_pow 10] at hlarge
    exact absurd (hhigh.trans_le hlarge) (not_lt.2 hvalue)
  unfold ofDecimal
  dsimp only
  rw [if_neg (by simp [hdigits, hleast]), if_neg (by omega)]
  have hquarters (num den : Nat) (hden : 0 < den) (hvalue : d.value = num / den) :
      ofRatio negative num den = finite negative scale fraction := by
    have hcovers : (intervalOf scale fraction).Covers (quarters d.value) := hd
    rw [quarters, hvalue] at hcovers
    refine ofRatio_of_holds negative hden ((Interval.holds_iff hden).2 ?_)
    convert hcovers using 1
    push_cast
    ring
  split
  · next hneg =>
    obtain ⟨n, hn⟩ : ∃ n : Nat, d.exponent = -n := ⟨d.exponent.natAbs, by omega⟩
    rw [hn, Int.natAbs_neg, Int.natAbs_natCast, Nat.pow_eq]
    refine hquarters _ _ (Nat.pow_pos (by decide)) ?_
    rw [Decimal.value, hn, zpow_neg, zpow_natCast]
    push_cast
    ring
  · next hnonneg =>
    obtain ⟨n, hn⟩ : ∃ n : Nat, d.exponent = n := ⟨d.exponent.natAbs, by omega⟩
    rw [hn, Int.natAbs_natCast, Nat.pow_eq]
    refine hquarters _ _ Nat.one_pos ?_
    rw [Decimal.value, hn, zpow_natCast]
    push_cast
    ring

/-- However the shortest decimal of a number is spelled, it is rounded to the number. -/
theorem ofDecimal_of_shortest (negative : Bool) {d : Decimal}
    (hd : d.value = (shortest scale fraction).value) :
    ofDecimal negative d.digits d.exponent = finite negative scale fraction := by
  by_cases h : magnitude scale fraction = 0
  · have hzero : d.digits = 0 := by
      rw [shortest, if_pos h, Decimal.value, Decimal.value, Nat.cast_zero, zero_mul] at hd
      exact Nat.cast_eq_zero.1 ((mul_eq_zero.1 hd).resolve_right (by positivity))
    have hrank : stepLog scale * fractions + significand scale fraction = 0 := by
      have hm : significand scale fraction = 0 :=
        (Nat.mul_eq_zero.1 h).resolve_right (Nat.two_pow_pos _).ne'
      have hscale : scale.val = 0 := by
        unfold significand fractions at hm
        split at hm <;> omega
      rw [hm, stepLog, hscale]
      simp
    unfold ofDecimal
    dsimp only
    rw [hzero, if_pos (by simp), ← hrank, ofRank_rank]
  · refine ofDecimal_of_within negative h ?_
    unfold Decimal.Within
    rw [hd]
    exact shortest_within h

end SyncForm.Binary64
