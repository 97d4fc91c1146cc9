import SyncForm.Json.Printer
import SyncForm.Json.Reader
import SyncForm.Proofs.Shortest

/-!
# Reading written numbers

A number that is written down is read back, whatever follows it that does not go on with it
(`readNumber_printInt`, `readNumber_render`). For a floating-point number this takes two steps: the
text spells some decimal that equals the shortest one (`spells_write`), and every such decimal is
rounded to the number.
-/

namespace SyncForm

open Text (ofDigits)

/-! ## Digits -/

/-- Two runs of digits spell the first one moved up by the second one. -/
theorem Text.ofDigits_append (ds es : List Char) :
    ofDigits (ds ++ es) = ofDigits ds * 10 ^ es.length + ofDigits es := by
  induction es using List.reverseRecOn with
  | nil => simp [ofDigits]
  | append_singleton es e ih =>
    have hlast (cs : List Char) :
        ofDigits (cs ++ [e]) = 10 * ofDigits cs + (e.toNat - '0'.toNat) := by
      simp [ofDigits]
    rw [← List.append_assoc, hlast, hlast, ih, List.length_append, List.length_singleton, pow_succ]
    ring

/-- The digits of a number spell it. -/
theorem Text.ofDigits_toDigits (n : Nat) : ofDigits (Nat.toDigits 10 n) = n :=
  Nat.ofDigitChars_ten_toDigits

/-- Zeros spell zero. -/
theorem Text.ofDigits_zeros (n : Nat) : ofDigits (List.replicate n '0') = 0 := by
  induction n with
  | zero => rfl
  | succ n ih => exact ih

/-- The digits of a number are digits. -/
theorem isDigit_toDigits (n : Nat) : ∀ c ∈ Nat.toDigits 10 n, c.isDigit = true :=
  fun _ hc => Nat.isDigit_of_mem_toDigits (by decide) (by decide) hc

/-- A number that is not zero starts with no zero. -/
theorem head?_toDigits {n : Nat} (hn : n ≠ 0) : (Nat.toDigits 10 n).head? ≠ some '0' := by
  induction n using Nat.strongRecOn with
  | ind n ih =>
    rcases Nat.lt_or_ge n 10 with hlt | hge
    · have hdigit : ∀ m < 10, m ≠ 0 → [m.digitChar].head? ≠ some '0' := by decide
      rw [Nat.toDigits_of_lt_base hlt]
      exact hdigit n hlt hn
    · rw [Nat.toDigits_of_base_le (by decide) hge,
        List.head?_append_of_ne_nil _ Nat.toDigits_ne_nil]
      exact ih (n / 10) (by omega) (by omega)

namespace Json

variable {rest : List Nat} {negative : Bool}

/-- What follows a number does not go on with it: it starts with no digit, no point and no letter
of an exponent. -/
def Breaks : List Nat → Prop
  | [] => True
  | n :: _ => isDigit n = false ∧ n ≠ 0x2E ∧ n ≠ 0x65 ∧ n ≠ 0x45

/-- A text does not start with a digit. -/
def NoDigit : List Nat → Prop
  | [] => True
  | n :: _ => isDigit n = false

/-- What is no digit starts a text without one. -/
theorem noDigit_cons {n : Nat} (h : isDigit n = false) : NoDigit (n :: rest) :=
  h

/-- A digit is known by its code point. -/
theorem isDigit_toNat (c : Char) : isDigit c.toNat = c.isDigit := by
  simp only [isDigit, Char.isDigit, ge_iff_le, UInt32.le_iff_toNat_le]
  rfl

/-- A run of digits is read up to its end. -/
theorem readDigits_append {ds : List Char} (hds : ∀ c ∈ ds, c.isDigit = true) (hne : ds ≠ [])
    (hrest : NoDigit rest) : readDigits (codes ds ++ rest) = some (ds, rest) := by
  have hcodes : ∀ n ∈ codes ds, isDigit n = true :=
    List.forall_mem_map.2 fun c hc => (isDigit_toNat c).trans (hds c hc)
  have htake : (codes ds ++ rest).takeWhile isDigit = codes ds := by
    rw [List.takeWhile_append_of_pos hcodes]
    cases rest with
    | nil => simp
    | cons n more =>
      have hn : isDigit n = false := hrest
      simp [hn]
  have hdrop : (codes ds ++ rest).dropWhile isDigit = rest := by
    rw [List.dropWhile_append_of_pos hcodes]
    cases rest with
    | nil => rfl
    | cons n more =>
      have hn : isDigit n = false := hrest
      simp [hn]
  unfold readDigits
  rw [htake, hdrop]
  cases ds with
  | nil => exact absurd rfl hne
  | cons c more => simp [codes, Function.comp_def]

/-- A run of digits that can be the whole part of a number: a zero starts it only if it is alone. -/
structure IsWhole (ds : List Char) : Prop where
  digits : ∀ c ∈ ds, c.isDigit = true
  ne_nil : ds ≠ []
  zero : ds = ['0'] ∨ ds.head? ≠ some '0'

/-- The digits of a number can be a whole part. -/
theorem isWhole_toDigits (n : Nat) : IsWhole (Nat.toDigits 10 n) where
  digits := isDigit_toDigits n
  ne_nil := Nat.toDigits_ne_nil
  zero := by
    by_cases hn : n = 0
    · subst hn
      exact .inl rfl
    · exact .inr (head?_toDigits hn)

/-- A number is read part by part. -/
theorem readNumber_parts {ds fraction : List Char} {more after : List Nat} {exponent : Option Int}
    (hds : IsWhole ds) (hmore : NoDigit more) (hfraction : readFraction more = (fraction, after))
    (hexponent : readExponent after = (exponent, rest)) :
    readNumber negative (codes ds ++ more) =
      if fraction.isEmpty && exponent.isNone then
        if digitLimit < ds.length then .error (.tooManyDigits ds.length)
        else .ok (.int (if negative then -(ofDigits ds : Int) else ofDigits ds), rest)
      else
        .ok (.float (Binary64.ofDecimal negative (ofDigits (ds ++ fraction))
          (exponent.getD 0 - fraction.length)), rest) := by
  obtain ⟨hdigits, hne, rfl | hzero⟩ := hds
  · change readNumber negative (0x30 :: more) = _
    unfold readNumber
    simp only [hfraction, hexponent]
  · have hread := readDigits_append hdigits hne hmore
    unfold readNumber
    split
    · next _ after hsplit =>
      cases ds with
      | nil => exact absurd rfl hne
      | cons c ds =>
        have hc : c = '0' := Char.toNat_inj.1 (List.head_eq_of_cons_eq hsplit)
        exact absurd (congrArg some hc) hzero
    · simp only [hread, hfraction, hexponent]

/-- What breaks a number off starts with no digit. -/
theorem Breaks.noDigit (h : Breaks rest) : NoDigit rest := by
  cases rest with
  | nil => trivial
  | cons c more => exact h.1

/-- Digits behind a point are read as a fraction. -/
theorem readFraction_point {ds : List Char} (hds : ∀ c ∈ ds, c.isDigit = true) (hne : ds ≠ [])
    (hrest : NoDigit rest) : readFraction (0x2E :: (codes ds ++ rest)) = (ds, rest) := by
  have hread := readDigits_append hds hne hrest
  unfold readFraction
  simp only [hread, Option.getD_some]

/-- Without a point there is no fraction. -/
theorem readFraction_of_no_point (h : rest.head? ≠ some 0x2E) : readFraction rest = ([], rest) := by
  unfold readFraction
  split
  · exact absurd rfl h
  · rfl

/-- What breaks a number off has no exponent in front. -/
theorem Breaks.readExponent (h : Breaks rest) : readExponent rest = (none, rest) := by
  unfold Json.readExponent
  cases rest with
  | nil => rfl
  | cons c more =>
    obtain ⟨-, -, he, hE⟩ := h
    dsimp only
    rw [if_neg (by simp [he, hE])]

/-- What breaks a number off has no fraction in front. -/
theorem Breaks.readFraction (h : Breaks rest) : readFraction rest = ([], rest) := by
  refine readFraction_of_no_point ?_
  cases rest with
  | nil => simp
  | cons c more => simpa using h.2.1

/-- An exponent is read with its sign. -/
theorem readExponent_sign {ds : List Char} (power : Int) (hds : ∀ c ∈ ds, c.isDigit = true)
    (hne : ds ≠ []) (hpower : ofDigits ds = power.natAbs) (hrest : Breaks rest) :
    readExponent (0x65 :: (if power < 0 then '-' else '+').toNat :: (codes ds ++ rest)) =
      (some power, rest) := by
  have hread := readDigits_append hds hne hrest.noDigit
  unfold readExponent
  by_cases hnegative : power < 0
  · have hsize : -((power.natAbs : Nat) : Int) = power := by omega
    have hsign : (if power < 0 then '-' else '+').toNat = 0x2D := by rw [if_pos hnegative]; rfl
    simp only [hsign, hread, hpower, hsize]
    simp
  · have hsize : ((power.natAbs : Nat) : Int) = power := by omega
    have hsign : (if power < 0 then '-' else '+').toNat = 0x2B := by rw [if_neg hnegative]; rfl
    simp only [hsign, hread, hpower, hsize]
    simp

/-- An integer that is not too long is read back. -/
theorem readNumber_printInt {n : Nat} (hlength : (Nat.toDigits 10 n).length ≤ digitLimit)
    (hrest : Breaks rest) : readNumber negative (codes (Nat.toDigits 10 n) ++ rest) =
      .ok (.int (if negative then -(n : Int) else n), rest) := by
  rw [readNumber_parts (isWhole_toDigits n) hrest.noDigit hrest.readFraction hrest.readExponent]
  simp [hlength, Text.ofDigits_toDigits]

open Binary64 in
/-- A text spells a number: whatever breaks it off, it is read as a decimal that equals the
number. -/
def Spells (cs : List Char) (x : ℚ) : Prop :=
  ∀ negative rest, Breaks rest → ∃ d : Decimal, d.value = x ∧
    readNumber negative (codes cs ++ rest) =
      .ok (.float (ofDecimal negative d.digits d.exponent), rest)

/-- A numeral with a point spells the number of all its digits, moved down by those behind it. -/
theorem spells_point {ds fraction : List Char} (hds : IsWhole ds)
    (hfraction : ∀ c ∈ fraction, c.isDigit = true) (hne : fraction ≠ []) :
    Spells (ds ++ '.' :: fraction) (ofDigits (ds ++ fraction) * 10 ^ (-fraction.length : Int)) := by
  intro negative rest hrest
  refine ⟨⟨ofDigits (ds ++ fraction), -fraction.length⟩, rfl, ?_⟩
  have hsplit : codes (ds ++ '.' :: fraction) ++ rest =
      codes ds ++ 0x2E :: (codes fraction ++ rest) := by
    rw [codes_append, codes_cons, List.append_assoc]
    rfl
  rw [hsplit, readNumber_parts hds (noDigit_cons (by rfl))
    (readFraction_point hfraction hne hrest.noDigit) hrest.readExponent]
  simp [hne]

/-- Digits with a point behind the first one, if there are more. -/
def mantissa : List Char → List Char
  | [] => []
  | [c] => [c]
  | c :: rest => c :: '.' :: rest

/-- A numeral with an exponent spells the number of all its digits, the first of which is moved to
the exponent. -/
theorem spells_exponent {c : Char} {ds size : List Char} {power : Int} (hc : IsWhole [c])
    (hds : ∀ c ∈ ds, c.isDigit = true) (hsize : ∀ c ∈ size, c.isDigit = true) (hne : size ≠ [])
    (hpower : ofDigits size = power.natAbs) :
    Spells (mantissa (c :: ds) ++ 'e' :: (if power < 0 then '-' else '+') :: size)
      (ofDigits (c :: ds) * 10 ^ (power - ds.length : Int)) := by
  intro negative rest hrest
  refine ⟨⟨ofDigits (c :: ds), power - ds.length⟩, rfl, ?_⟩
  have hexponent := readExponent_sign power hsize hne hpower hrest
  generalize (if power < 0 then '-' else '+') = sign at *
  obtain ⟨more, hsplit, hmore, hfraction⟩ : ∃ more,
      codes (mantissa (c :: ds) ++ 'e' :: sign :: size) ++ rest = codes [c] ++ more ∧
        NoDigit more ∧
        readFraction more = (ds, 0x65 :: sign.toNat :: (codes size ++ rest)) := by
    cases ds with
    | nil =>
      exact ⟨0x65 :: sign.toNat :: (codes size ++ rest), rfl, rfl,
        readFraction_of_no_point (by simp)⟩
    | cons first others =>
      refine ⟨0x2E :: (codes (first :: others) ++ 0x65 :: sign.toNat :: (codes size ++ rest)), ?_,
        rfl, readFraction_point hds (by simp) rfl⟩
      rw [codes_append, List.append_assoc]
      rfl
  rw [hsplit, readNumber_parts hc hmore hfraction hexponent]
  simp

section

variable {ds : List Char}

/-- Zeros are digits. -/
theorem isDigit_zeros (k : Nat) : ∀ c ∈ List.replicate k '0', c.isDigit = true := by
  intro c hc
  rw [List.eq_of_mem_replicate hc]
  rfl

/-- Zeros between a point and the digits of a number move the number further down. -/
theorem spells_leading (hdigits : ∀ c ∈ ds, c.isDigit = true) (hne : ds ≠ []) (k : Nat) :
    Spells ('0' :: '.' :: (List.replicate k '0' ++ ds))
      (ofDigits ds * 10 ^ (-(k + ds.length) : Int)) := by
  have hpoint := spells_point (⟨by simp, by simp, .inl rfl⟩ : IsWhole ['0'])
    (List.forall_mem_append.2 ⟨isDigit_zeros k, hdigits⟩) (by simp [hne])
  have hvalue : ofDigits (['0'] ++ (List.replicate k '0' ++ ds)) = ofDigits ds := by
    rw [Text.ofDigits_append, Text.ofDigits_append, Text.ofDigits_zeros]
    simp [ofDigits]
  rw [hvalue, List.length_append, List.length_replicate, Nat.cast_add] at hpoint
  exact hpoint

/-- Zeros behind the digits of a number move the number up. -/
theorem spells_trailing (hdigits : ∀ c ∈ ds, c.isDigit = true) (hne : ds ≠ [])
    (hhead : ds.head? ≠ some '0') (k : Nat) :
    Spells (ds ++ List.replicate k '0' ++ ['.', '0']) (ofDigits ds * 10 ^ (k : Int)) := by
  have hwhole : IsWhole (ds ++ List.replicate k '0') :=
    ⟨List.forall_mem_append.2 ⟨hdigits, isDigit_zeros k⟩, by simp [hne],
      .inr (by rwa [List.head?_append_of_ne_nil _ hne])⟩
  have hpoint := spells_point hwhole (isDigit_zeros 1) (by simp)
  have hvalue : (ofDigits (ds ++ List.replicate k '0' ++ List.replicate 1 '0') : ℚ) *
      10 ^ (-(List.replicate 1 '0').length : Int) = ofDigits ds * 10 ^ (k : Int) := by
    rw [Text.ofDigits_append, Text.ofDigits_append, Text.ofDigits_zeros, Text.ofDigits_zeros,
      List.length_replicate, List.length_replicate]
    norm_num
    ring
  rwa [hvalue] at hpoint

/-- A point among the digits of a number moves the number down by those behind it. -/
theorem spells_among (hdigits : ∀ c ∈ ds, c.isDigit = true) (hhead : ds.head? ≠ some '0') {k : Nat}
    (hk : 0 < k) (hlt : k < ds.length) :
    Spells (ds.take k ++ '.' :: ds.drop k) (ofDigits ds * 10 ^ (k - ds.length : Int)) := by
  have hwhole : IsWhole (ds.take k) := by
    refine ⟨fun d hd => hdigits d (List.mem_of_mem_take hd), ?_, .inr ?_⟩
    · rw [Ne, List.take_eq_nil_iff]
      rintro (rfl | rfl)
      · omega
      · simp at hlt
    · rwa [List.head?_take, if_neg (by omega)]
  have hdrop : ds.drop k ≠ [] := by
    rw [Ne, List.drop_eq_nil_iff]
    omega
  have hpoint := spells_point hwhole (fun d hd => hdigits d (List.mem_of_mem_drop hd)) hdrop
  have hexponent : (-(ds.drop k).length : Int) = k - ds.length := by
    rw [List.length_drop]
    omega
  rwa [List.take_append_drop, hexponent] at hpoint

/-- An exponent of at least two digits moves a number with a point behind its first digit. -/
theorem spells_power (hdigits : ∀ c ∈ ds, c.isDigit = true) (hne : ds ≠ [])
    (hhead : ds.head? ≠ some '0') (power : Int) :
    let size := Nat.toDigits 10 power.natAbs
    Spells (mantissa ds ++ 'e' :: (if power < 0 then '-' else '+') ::
        (if size.length < 2 then '0' :: size else size))
      (ofDigits ds * 10 ^ (power + 1 - ds.length : Int)) := by
  intro size
  obtain ⟨c, ds, rfl⟩ := List.exists_cons_of_ne_nil hne
  have hfirst : IsWhole [c] :=
    ⟨fun d hd => hdigits d (List.mem_singleton.1 hd ▸ .head _), by simp, .inr hhead⟩
  have hsize : ∀ c ∈ size, c.isDigit = true := isDigit_toDigits power.natAbs
  have hexponent : (power + 1 - (c :: ds).length : Int) = power - ds.length := by
    rw [List.length_cons]
    push_cast
    ring
  rw [hexponent]
  refine spells_exponent hfirst (fun d hd => hdigits d (.tail _ hd)) ?_ ?_ ?_
  · split
    · exact List.forall_mem_cons.2 ⟨rfl, hsize⟩
    · exact hsize
  · split
    · simp
    · exact Nat.toDigits_ne_nil
  · split
    · exact Text.ofDigits_toDigits _
    · exact Text.ofDigits_toDigits _

end

open Binary64 in
/-- A positive decimal is written as a text that spells it. -/
theorem spells_write {d : Decimal} (hd : d.digits ≠ 0) : Spells d.write d.value := by
  obtain ⟨n, e⟩ := d
  have hdigits := isDigit_toDigits n
  have hne : Nat.toDigits 10 n ≠ [] := Nat.toDigits_ne_nil
  have hspelled := Text.ofDigits_toDigits n
  have hhead := head?_toDigits hd
  unfold Decimal.write Decimal.value
  dsimp only
  generalize Nat.toDigits 10 n = ds at *
  subst hspelled
  -- Each layout spells the digits moved by some power of ten, which is `e`.
  have hmoved {cs : List Char} {power : Int} (hspells : Spells cs (ofDigits ds * 10 ^ power))
      (hpower : power = e) : Spells cs (ofDigits ds * 10 ^ e) := hpower ▸ hspells
  split
  · exact hmoved (spells_power hdigits hne hhead _) (by omega)
  · split
    · exact hmoved (spells_leading hdigits hne _) (by omega)
    · split
      · exact hmoved (spells_trailing hdigits hne hhead _) (by omega)
      · exact hmoved (spells_among hdigits hhead (by omega) (by omega)) (by omega)

open Binary64 in
/-- A finite number is written as a text that spells it, behind a sign of its own. -/
theorem readNumber_render {scale : Fin 2047} {fraction : Fin 4503599627370496} {rest : List Nat}
    (negative : Bool) (hrest : Breaks rest) :
    readNumber negative (codes (if magnitude scale fraction = 0 then ['0', '.', '0']
        else (shortest scale fraction).write) ++ rest) =
      .ok (.float (finite negative scale fraction), rest) := by
  have hspells : Spells (if magnitude scale fraction = 0 then ['0', '.', '0']
      else (shortest scale fraction).write) (shortest scale fraction).value := by
    split
    · next h =>
      have hpoint := spells_point (⟨by simp, by simp, .inl rfl⟩ : IsWhole ['0'])
        (by simp : ∀ c ∈ ['0'], c.isDigit = true) (by simp)
      have hvalue : (ofDigits (['0'] ++ ['0']) : ℚ) * 10 ^ (-['0'].length : Int) =
          (shortest scale fraction).value := by
        rw [shortest, if_pos h]
        simp [Decimal.value, ofDigits]
      rw [hvalue] at hpoint
      exact hpoint
    · next h => exact spells_write ((shortest_within h).positive h).2
  obtain ⟨d, hd, hread⟩ := hspells negative rest hrest
  rw [hread, ofDecimal_of_shortest negative hd]

end Json

end SyncForm
