import Mathlib.Data.Nat.Log
import Mathlib.Tactic.Ring
import SyncForm.Number.Decimal

/-!
# What rounds to a number

Every quotient that lies in the interval of a number (`intervalOf`) is rounded to that number
(`ofRatio_of_holds`). The interval lies in one binade, where the quotient is brought below 53 bits
by the power of two of the number itself, but for its lower end below a power of two: there the
quotient keeps one bit more, and the carry out of the rounding makes up for it (`rank_of_carry`).
-/

namespace SyncForm.Binary64

variable {scale : Fin 2047} {fraction : Fin 4503599627370496} {scaled den : Nat}

/-- A quotient within half of the divisor of a multiple is rounded to it; at exactly a half the
multiple is even. -/
theorem roundQuotient_eq {num den m : Nat} (hlow : 2 * (m * den) ≤ 2 * num + den)
    (hhigh : 2 * num ≤ 2 * (m * den) + den)
    (htie : m % 2 = 0 ∨ (2 * (m * den) < 2 * num + den ∧ 2 * num < 2 * (m * den) + den))
    (hden : 0 < den) : roundQuotient num den = m := by
  have hsplit := Nat.div_add_mod num den
  have hrest := Nat.mod_lt num hden
  unfold roundQuotient
  dsimp only
  generalize num / den = q at *
  generalize num % den = r at *
  subst hsplit
  rw [Nat.mul_comm den q] at *
  have hle : q ≤ m := by
    by_contra hlt
    have hmore : (m + 1) * den ≤ q * den := Nat.mul_le_mul_right den (by omega)
    rw [Nat.add_mul] at hmore
    omega
  have hge : m ≤ q + 1 := by
    by_contra hlt
    have hless : (q + 2) * den ≤ m * den := Nat.mul_le_mul_right den (by omega)
    rw [Nat.add_mul] at hless
    omega
  obtain rfl | rfl : m = q ∨ m = q + 1 := by omega
  · simp
    omega
  · rw [Nat.add_mul] at *
    simp
    omega

/-- The rank of the number to which a quotient is rounded. -/
def rank (scaled den : Nat) : Nat :=
  let shift := (scaled / den).log2 + 1 - 53
  shift * fractions + roundQuotient scaled (den * Nat.pow 2 shift)

/-- A quotient is rounded to the number of its rank. -/
theorem ofRatio_eq (negative : Bool) (num den : Nat) :
    ofRatio negative num den = ofRank negative (rank (num * unitsInOne) den) :=
  rfl

/-- A number is the one of its rank. -/
theorem ofRank_rank (negative : Bool) :
    ofRank negative (stepLog scale * fractions + significand scale fraction) =
      finite negative scale fraction := by
  have hrank : stepLog scale * fractions + significand scale fraction =
      scale.val * 4503599627370496 + fraction.val := by
    unfold stepLog significand fractions
    split <;> omega
  have hscale : (scale.val * 4503599627370496 + fraction.val) / 4503599627370496 = scale.val := by
    omega
  have hfraction : (scale.val * 4503599627370496 + fraction.val) % 4503599627370496 =
      fraction.val := by
    omega
  unfold ofRank
  rw [hrank, dif_pos (by rw [hscale]; exact scale.isLt)]
  congr 1
  · exact Fin.ext hscale
  · exact Fin.ext hfraction

/-- A quotient below `2 ^ 53` times a power of two is shifted by that power, unless it is brought
below `2 ^ 52`. -/
theorem rank_of_binade {k : Nat} (hlow : k = 0 ∨ 2 ^ 52 * (den * 2 ^ k) ≤ scaled)
    (hhigh : scaled < 2 ^ 53 * (den * 2 ^ k)) (hden : 0 < den) :
    rank scaled den = k * fractions + roundQuotient scaled (den * 2 ^ k) := by
  have hlt : scaled / den < 2 ^ (53 + k) := by
    rw [Nat.div_lt_iff_lt_mul hden, Nat.pow_add, Nat.mul_assoc, Nat.mul_comm (2 ^ k)]
    exact hhigh
  have hshift : (scaled / den).log2 + 1 - 53 = k := by
    by_cases hzero : scaled / den = 0
    · rcases hlow with rfl | hlow
      · rw [hzero]
        decide
      · have hpos := Nat.mul_pos (Nat.two_pow_pos 52) (Nat.two_pow_pos k)
        have hsmall := (Nat.div_eq_zero_iff_lt hden).1 hzero
        rw [Nat.mul_left_comm] at hlow
        have := Nat.le_mul_of_pos_right den hpos
        omega
    · have hupper := (Nat.log2_lt hzero).2 hlt
      rcases hlow with rfl | hlow
      · omega
      · have hge : 2 ^ (52 + k) ≤ scaled / den := by
          rw [Nat.le_div_iff_mul_le hden, Nat.pow_add, Nat.mul_assoc, Nat.mul_comm (2 ^ k)]
          exact hlow
        have hlower := (Nat.le_log2 hzero).2 hge
        omega
  unfold rank
  dsimp only
  rw [hshift]
  rfl

/-- What an interval holds lies between its ends, and strictly so if it is open. -/
theorem Interval.bounds {i : Interval} {num den : Nat} (h : i.holds num den = true) :
    i.low * den ≤ num ∧ num ≤ i.high * den ∧
      (i.closed = true ∨ (i.low * den < num ∧ num < i.high * den)) := by
  unfold holds at h
  split at h
  · next hclosed =>
    simp only [Bool.and_eq_true, decide_eq_true_eq] at h
    exact ⟨h.1, h.2, .inl hclosed⟩
  · simp only [Bool.and_eq_true, decide_eq_true_eq] at h
    exact ⟨h.1.le, h.2.le, .inr h⟩

/-- A significand has at most 53 bits; from the second scale on it has as many. -/
theorem significand_bounds (scale : Fin 2047) (fraction : Fin 4503599627370496) :
    significand scale fraction < 2 ^ 53 ∧
      (0 < stepLog scale → 2 ^ 52 + fraction.val = significand scale fraction) := by
  unfold significand stepLog fractions
  split <;> omega

/-- Just below a power of two a quotient is shifted by one place less, and rounding carries it
over. -/
theorem rank_of_carry {k : Nat} (hlow : (2 ^ 54 - 1) * (den * 2 ^ (k + 1)) ≤ 4 * scaled)
    (hhigh : scaled < 2 ^ 52 * (den * 2 ^ (k + 1))) (hden : 0 < den) :
    rank scaled den = (k + 1) * fractions + 2 ^ 52 := by
  have hdouble : den * 2 ^ (k + 1) = 2 * (den * 2 ^ k) := by ring
  rw [hdouble] at hlow hhigh
  have hround : roundQuotient scaled (den * 2 ^ k) = 2 ^ 53 :=
    roundQuotient_eq (by omega) (by omega) (.inl (by decide)) (Nat.mul_pos hden (Nat.two_pow_pos k))
  rw [rank_of_binade (k := k) (.inr (by omega)) (by omega) hden, hround]
  unfold fractions
  omega

/-- The ends of the interval of a number, counted in steps of its significand `m`: they lie half a
step away, the lower end a quarter below a power of two. -/
theorem steps_of_holds {m steps : Nat} (hm : m = significand scale fraction)
    (hsteps : steps = den * 2 ^ stepLog scale)
    (h : (intervalOf scale fraction).holds (4 * scaled) den = true) :
    (2 * (m * steps) ≤ 2 * scaled + steps ∧ 2 * scaled ≤ 2 * (m * steps) + steps) ∧
      (m % 2 = 0 ∨ (2 * (m * steps) < 2 * scaled + steps ∧ 2 * scaled < 2 * (m * steps) + steps)) ∧
      (fraction.val = 0 → 0 < stepLog scale → 4 * (m * steps) ≤ 4 * scaled + steps) := by
  have hscale : 1 < scale.val ↔ 0 < stepLog scale := by unfold stepLog; omega
  obtain ⟨hlow, hhigh, htie⟩ := Interval.bounds h
  have hhighest : (intervalOf scale fraction).high * den = 4 * (m * steps) + 2 * steps := by
    rw [hm, hsteps, intervalOf, magnitude, Nat.pow_eq]
    ring
  have hlowest : (intervalOf scale fraction).low * den =
      4 * (m * steps) - if fraction.val = 0 ∧ 0 < stepLog scale then steps else 2 * steps := by
    simp only [intervalOf, magnitude, Nat.pow_eq, hm, hsteps, Nat.sub_mul, Bool.and_eq_true,
      decide_eq_true_eq, hscale]
    congr 1
    · ring
    · split <;> ring
  have hclosed : (intervalOf scale fraction).closed = true ↔ m % 2 = 0 := by
    rw [hm, intervalOf, beq_iff_eq]
  rw [hhighest] at hhigh
  rw [hlowest] at hlow
  rw [hclosed, hlowest, hhighest] at htie
  by_cases hbelow : fraction.val = 0 ∧ 0 < stepLog scale
  · rw [if_pos hbelow] at hlow htie
    omega
  · rw [if_neg hbelow] at hlow htie
    omega

/-- What the interval of a number holds has the rank of the number. -/
theorem rank_of_holds (hden : 0 < den)
    (h : (intervalOf scale fraction).holds (4 * scaled) den = true) :
    rank scaled den = stepLog scale * fractions + significand scale fraction := by
  obtain ⟨hm, hmin⟩ := significand_bounds scale fraction
  obtain ⟨⟨hlow, hhigh⟩, htie, hquarter⟩ := steps_of_holds rfl rfl h
  generalize stepLog scale = k at *
  generalize significand scale fraction = m at *
  have hsteps : 0 < den * 2 ^ k := Nat.mul_pos hden (Nat.two_pow_pos k)
  have hmost : m * (den * 2 ^ k) ≤ (2 ^ 53 - 1) * (den * 2 ^ k) :=
    Nat.mul_le_mul_right _ (by omega)
  by_cases hcarry : (fraction.val = 0 ∧ 0 < k) ∧ scaled < 2 ^ 52 * (den * 2 ^ k)
  · obtain ⟨⟨hzero, hpos⟩, hless⟩ := hcarry
    obtain ⟨k, rfl⟩ : ∃ j, k = j + 1 := ⟨k - 1, by omega⟩
    obtain rfl : 2 ^ 52 = m := by rw [← hmin hpos, hzero, Nat.add_zero]
    exact rank_of_carry (by have := hquarter hzero hpos; omega) hless hden
  · have hleast : k = 0 ∨ 2 ^ 52 * (den * 2 ^ k) ≤ scaled := by
      by_contra hnot
      push Not at hnot
      obtain ⟨hpos, hless⟩ := hnot
      have hmore : (2 ^ 52 + 1) * (den * 2 ^ k) ≤ m * (den * 2 ^ k) :=
        Nat.mul_le_mul_right _ (by have := hmin (by omega); omega)
      omega
    rw [rank_of_binade hleast (by omega) hden, roundQuotient_eq hlow hhigh htie hsteps]

/-- What the interval of a number holds is rounded to the number. -/
theorem ofRatio_of_holds (negative : Bool) {num : Nat} (hden : 0 < den)
    (h : (intervalOf scale fraction).holds (4 * (num * unitsInOne)) den = true) :
    ofRatio negative num den = finite negative scale fraction := by
  rw [ofRatio_eq, rank_of_holds hden h, ofRank_rank]

end SyncForm.Binary64
