import Mathlib.Data.List.Chain
import SyncForm.Json.Printer
import SyncForm.Json.Reader

/-!
# Escaped texts

What is read back from the written form of a text is the text with its surrogate pairs joined
(`readText_print`): where the first half of a pair stands right before a second half, their escapes
are written side by side and read as one code point. So a text comes back as it is just if it is
unpaired. A text that is read may hold a pair only if half of it stood there as itself: what is read
from characters alone is unpaired (`unpaired_of_readText`).
-/

namespace SyncForm

open Text (hex hexValue?)

/-! ## Hexadecimal digits -/

/-- A number has its last digit behind the digits of the rest. -/
theorem Text.hex_succ {width : Nat} (hwidth : 0 < width) (n : Nat) :
    hex (width + 1) n = hex width (n / 16) ++ [(n % 16).digitChar] := by
  unfold hex
  dsimp only
  rcases Nat.lt_or_ge n 16 with hlt | hge
  · obtain ⟨k, rfl⟩ : ∃ k, width = k + 1 := ⟨width - 1, by omega⟩
    rw [Nat.toDigits_of_lt_base hlt, Nat.div_eq_of_lt hlt, Nat.mod_eq_of_lt hlt]
    simp [List.replicate_succ']
  · rw [Nat.toDigits_of_base_le (by decide) hge]
    simp

/-- A hexadecimal digit is read as its value. -/
theorem Text.hexValue?_digitChar : ∀ d < 16, hexValue? d.digitChar = some d := by
  decide

/-- A hexadecimal digit has a value below sixteen. -/
theorem Text.hexValue?_lt {c : Char} {d : Nat} (h : hexValue? c = some d) : d < 16 := by
  have htoNat : c.toNat = c.val.toNat := rfl
  unfold hexValue? at h
  simp only [Char.isDigit, Bool.and_eq_true, decide_eq_true_eq, Char.le_def, ge_iff_le,
    UInt32.le_iff_toNat_le, ← htoNat] at h
  split_ifs at h
  all_goals
    obtain rfl := Option.some.inj h
    simp at *
    omega

namespace Json

variable {n : Nat} {rest more cs : List Nat}

/-- Four hexadecimal digits are read back. -/
theorem readHex4_hex (hn : n < 0x10000) : readHex4 (codes (hex 4 n) ++ more) = some (n, more) := by
  have hone {m : Nat} (hm : m < 16) : hex 1 m = [m.digitChar] := by
    unfold hex
    rw [Nat.toDigits_of_lt_base hm]
    rfl
  rw [Text.hex_succ (by decide), Text.hex_succ (by decide), Text.hex_succ (by decide),
    hone (by omega)]
  simp only [codes, List.map_cons, List.map_nil, List.cons_append, List.nil_append, readHex4,
    Char.ofNat_toNat]
  rw [Text.hexValue?_digitChar _ (by omega), Text.hexValue?_digitChar _ (by omega),
    Text.hexValue?_digitChar _ (by omega), Text.hexValue?_digitChar _ (by omega)]
  refine congrArg some (Prod.ext ?_ rfl)
  dsimp only
  omega

/-- Four hexadecimal digits have a value of sixteen bits, and are taken off the front. -/
theorem readHex4_spec (h : readHex4 cs = some (n, rest)) : n < 0x10000 ∧ rest ⊆ cs := by
  unfold readHex4 at h
  split at h
  · next a b c d last =>
    simp only [Option.bind_eq_bind, Option.bind_eq_some_iff] at h
    obtain ⟨a', ha, b', hb, c', hc, d', hd, hn⟩ := h
    have hn := Option.some.inj hn
    have hrest : last = rest := congrArg Prod.snd hn
    have hn := congrArg Prod.fst hn
    have ha := Text.hexValue?_lt ha
    have hb := Text.hexValue?_lt hb
    have hc := Text.hexValue?_lt hc
    have hd := Text.hexValue?_lt hd
    dsimp only at hn
    refine ⟨by omega, ?_⟩
    rw [← hrest]
    exact List.subset_append_right [a, b, c, d] last
  · cases h

/-! ## Surrogate pairs -/

/-- A text consists of code points. -/
def IsText (text : List Nat) : Prop :=
  ∀ n ∈ text, n < 0x110000

/-- No first half of a surrogate pair stands right before a second half. -/
def Unpaired (text : List Nat) : Prop :=
  text.IsChain fun n m => isHighSurrogate n = true → isLowSurrogate m = false

instance (text : List Nat) : Decidable (IsText text) :=
  inferInstanceAs (Decidable (∀ n ∈ text, _))

instance (text : List Nat) : Decidable (Unpaired text) :=
  inferInstanceAs (Decidable (text.IsChain _))

/-- A text with each surrogate pair in it as the one code point that it stands for. -/
def joinCodes : List Nat → List Nat
  | n :: m :: text =>
    if isHighSurrogate n && isLowSurrogate m then joinSurrogates n m :: joinCodes text
    else n :: joinCodes (m :: text)
  | text => text

/-- Both halves of a surrogate pair are code units, and no first half is a second one. -/
theorem isHighSurrogate.spec (h : isHighSurrogate n = true) :
    n < 0x10000 ∧ isLowSurrogate n = false := by
  simp only [isHighSurrogate, isLowSurrogate, Bool.and_eq_true, decide_eq_true_eq,
    Bool.and_eq_false_iff, decide_eq_false_iff_not] at *
  omega

/-- The second half of a surrogate pair is a code unit. -/
theorem isLowSurrogate.lt (h : isLowSurrogate n = true) : n < 0x10000 := by
  simp only [isLowSurrogate, Bool.and_eq_true, decide_eq_true_eq] at h
  omega

/-- A surrogate pair stands for a code point that is no half of one. -/
theorem joinSurrogates_spec {high low : Nat} (hhigh : isHighSurrogate high = true)
    (hlow : isLowSurrogate low = true) (hn : joinSurrogates high low = n) :
    n < 0x110000 ∧ isHighSurrogate n = false ∧ isLowSurrogate n = false := by
  unfold joinSurrogates at hn
  simp only [isHighSurrogate, isLowSurrogate, Bool.and_eq_true, Bool.and_eq_false_iff,
    decide_eq_true_eq, decide_eq_false_iff_not] at *
  omega

/-- A character is no half of a surrogate pair. -/
theorem not_surrogate (hn : n.isValidChar) :
    isHighSurrogate n = false ∧ isLowSurrogate n = false := by
  simp only [isHighSurrogate, isLowSurrogate, Bool.and_eq_false_iff, decide_eq_false_iff_not]
  rcases hn with hlt | ⟨hgt, hlt⟩ <;> omega

/-- A character is a code point. -/
theorem lt_of_isValidChar (hn : n.isValidChar) : n < 0x110000 := by
  rcases hn with hlt | ⟨hgt, hlt⟩ <;> omega

/-- The code points of characters are a text. -/
theorem isText_codesOf (s : String) : IsText (codesOf s) :=
  List.forall_mem_map.2 fun c _ => lt_of_isValidChar c.valid

/-- A text is unpaired if it is behind its first code point, which pairs with nothing there. -/
theorem unpaired_cons {text : List Nat} : Unpaired (n :: text) ↔
    (isHighSurrogate n = true → ∀ m ∈ text.head?, isLowSurrogate m = false) ∧ Unpaired text := by
  rw [Unpaired, Unpaired, List.isChain_cons]
  exact and_congr_left' ⟨fun h hn m hm => h m hm hn, fun h m hm hn => h hn m hm⟩

/-- The code points of characters hold no surrogate pair. -/
theorem unpaired_codesOf (s : String) : Unpaired (codesOf s) := by
  unfold codesOf
  induction s.toList with
  | nil => exact .nil
  | cons c cs ih =>
    refine unpaired_cons.2 ⟨fun hhigh => ?_, ih⟩
    cases (not_surrogate c.valid).1.symm.trans hhigh

/-- Nothing is joined in an unpaired text. -/
theorem joinCodes_of_unpaired {text : List Nat} (h : Unpaired text) : joinCodes text = text := by
  fun_induction joinCodes text with
  | case1 n m text hpair ih =>
    rw [Bool.and_eq_true] at hpair
    cases ((unpaired_cons.1 h).1 hpair.1 m rfl).symm.trans hpair.2
  | case2 n m text hpair ih => rw [ih (unpaired_cons.1 h).2]
  | case3 text hshort => rfl

/-- The second half of a pair stands first in a joined text only if it did so before. -/
theorem head?_joinCodes {text : List Nat} {m : Nat} (hm : m ∈ (joinCodes text).head?)
    (hlow : isLowSurrogate m = true) : m ∈ text.head? := by
  fun_induction joinCodes text with
  | case1 first second text hpair ih =>
    rw [Bool.and_eq_true] at hpair
    have hjoin : joinSurrogates first second = m := Option.some.inj hm
    cases (joinSurrogates_spec hpair.1 hpair.2 hjoin).2.2.symm.trans hlow
  | case2 first second text hpair ih => exact hm
  | case3 text hshort => exact hm

/-- A joined text is unpaired. -/
theorem unpaired_joinCodes (text : List Nat) : Unpaired (joinCodes text) := by
  fun_induction joinCodes text with
  | case1 n m text hpair ih =>
    rw [Bool.and_eq_true] at hpair
    refine unpaired_cons.2 ⟨fun hhigh => ?_, ih⟩
    cases (joinSurrogates_spec hpair.1 hpair.2 rfl).2.1.symm.trans hhigh
  | case2 n m text hpair ih =>
    refine unpaired_cons.2 ⟨fun hhigh first hfirst => ?_, ih⟩
    by_contra hlow
    rw [Bool.not_eq_false] at hlow
    cases head?_joinCodes hfirst hlow
    exact hpair (by rw [hhigh, hlow]; rfl)
  | case3 text hshort =>
    match text, hshort with
    | [], _ => exact .nil
    | [n], _ => exact .singleton n
    | n :: m :: text, hshort => exact absurd rfl (hshort n m text)

/-! ## Writing -/

/-- The forms in which a code point is written: a one-letter escape, the character itself, or the
escapes of one or two code units. -/
theorem printCode_cases (hn : n < 0x110000) :
    (∃ letter, printCode n = [0x5C, letter] ∧ letter ≠ 0x75 ∧ escaped? letter = some n) ∨
    (printCode n = [n] ∧ 0x20 ≤ n ∧ n ≠ 0x22 ∧ n ≠ 0x5C) ∨
    (n < 0x10000 ∧ printCode n = escapeUnit n) ∨
    ∃ high low, isHighSurrogate high = true ∧ isLowSurrogate low = true ∧
      joinSurrogates high low = n ∧ printCode n = escapeUnit high ++ escapeUnit low := by
  generalize hprint : printCode n = p
  unfold printCode at hprint
  split at hprint
  · next h => exact .inl ⟨0x22, hprint.symm, by decide, by rw [h]; rfl⟩
  split at hprint
  · next h => exact .inl ⟨0x5C, hprint.symm, by decide, by rw [h]; rfl⟩
  split at hprint
  · next h => exact .inl ⟨0x6E, hprint.symm, by decide, by rw [h]; rfl⟩
  split at hprint
  · next h => exact .inl ⟨0x72, hprint.symm, by decide, by rw [h]; rfl⟩
  split at hprint
  · next h => exact .inl ⟨0x74, hprint.symm, by decide, by rw [h]; rfl⟩
  split at hprint
  · next h => exact .inl ⟨0x66, hprint.symm, by decide, by rw [h]; rfl⟩
  split at hprint
  · next h => exact .inl ⟨0x62, hprint.symm, by decide, by rw [h]; rfl⟩
  split at hprint
  · next hquote hslash _ _ _ _ _ hrange =>
    exact .inr (.inl ⟨hprint.symm, hrange.1, hquote, hslash⟩)
  split at hprint
  · next h => exact .inr (.inr (.inl ⟨h, hprint.symm⟩))
  · refine .inr (.inr (.inr ⟨_, _, ?_, ?_, ?_, hprint.symm⟩))
    · simp only [isHighSurrogate, Bool.and_eq_true, decide_eq_true_eq]
      omega
    · simp only [isLowSurrogate, Bool.and_eq_true, decide_eq_true_eq]
      omega
    · unfold joinSurrogates
      omega

/-- A code point beyond ASCII that is a code unit is written as the escape of it. -/
theorem printCode_unit (hlow : 0x7F ≤ n) (hhigh : n < 0x10000) : printCode n = escapeUnit n := by
  unfold printCode
  repeat rw [if_neg (by omega)]
  rw [if_pos hhigh]

/-- A code point beyond the basic plane is written as the escapes of two code units. -/
theorem printCode_wide (hn : 0x10000 ≤ n) : printCode n =
    escapeUnit (0xD800 + (n - 0x10000) / 0x400) ++
      escapeUnit (0xDC00 + (n - 0x10000) % 0x400) := by
  unfold printCode
  repeat rw [if_neg (by omega)]

/-- A surrogate pair and the code point that it stands for are written alike. -/
theorem printCode_joinSurrogates {high low : Nat} (hhigh : isHighSurrogate high = true)
    (hlow : isLowSurrogate low = true) :
    printCode (joinSurrogates high low) = escapeUnit high ++ escapeUnit low := by
  simp only [isHighSurrogate, isLowSurrogate, Bool.and_eq_true, decide_eq_true_eq] at *
  have hwide : 0x10000 ≤ joinSurrogates high low := by
    unfold joinSurrogates
    omega
  have hfirst : 0xD800 + (joinSurrogates high low - 0x10000) / 0x400 = high := by
    unfold joinSurrogates
    omega
  have hsecond : 0xDC00 + (joinSurrogates high low - 0x10000) % 0x400 = low := by
    unfold joinSurrogates
    omega
  rw [printCode_wide hwide, hfirst, hsecond]

/-- Each half of a surrogate pair is written as an escape. -/
theorem printCode_halves {high low : Nat} (hhigh : isHighSurrogate high = true)
    (hlow : isLowSurrogate low = true) :
    printCode high = escapeUnit high ∧ printCode low = escapeUnit low := by
  simp only [isHighSurrogate, isLowSurrogate, Bool.and_eq_true, decide_eq_true_eq] at *
  exact ⟨printCode_unit (by omega) (by omega), printCode_unit (by omega) (by omega)⟩

/-- A text is written as the text with its surrogate pairs joined. -/
theorem flatMap_printCode_joinCodes (text : List Nat) :
    (joinCodes text).flatMap printCode = text.flatMap printCode := by
  fun_induction joinCodes text with
  | case1 n m text hpair ih =>
    rw [Bool.and_eq_true] at hpair
    obtain ⟨hn, hm⟩ := printCode_halves hpair.1 hpair.2
    rw [List.flatMap_cons, List.flatMap_cons, List.flatMap_cons, ih,
      printCode_joinSurrogates hpair.1 hpair.2, hn, hm, List.append_assoc]
  | case2 n m text hpair ih => rw [List.flatMap_cons, List.flatMap_cons, ih]
  | case3 text hshort => rfl

/-! ## Reading back -/

/-- What stands behind a first half of a surrogate pair and is not the escape of a second half: a
closing quote or a text that starts otherwise. -/
def Separates (more : List Nat) : Prop :=
  ∀ after, more = 0x5C :: 0x75 :: after → ∃ low rest, readHex4 after = some (low, rest) ∧
    isLowSurrogate low = false

/-- The escape of a code unit is read as that unit, unless it is taken for the first half of a
pair. -/
theorem readEscape_unit (hn : n < 0x10000)
    (hmore : isHighSurrogate n = true → Separates more) :
    readEscape 0x75 (codes (hex 4 n) ++ more) = some (n, more) := by
  unfold readEscape
  rw [if_pos rfl, readHex4_hex hn]
  dsimp only
  split
  · next after =>
    split
    · next hhigh =>
      obtain ⟨low, rest, hread, hlow⟩ := hmore hhigh after rfl
      rw [hread]
      dsimp only
      rw [hlow]
      rfl
    · rfl
  · rfl

/-- The escapes of a surrogate pair are read as one code point. -/
theorem readEscape_pair {high low : Nat} (hhigh : isHighSurrogate high = true)
    (hlow : isLowSurrogate low = true) :
    readEscape 0x75 (codes (hex 4 high) ++ (escapeUnit low ++ more)) =
      some (joinSurrogates high low, more) := by
  unfold readEscape escapeUnit
  rw [if_pos rfl, readHex4_hex (isHighSurrogate.spec hhigh).1]
  have hread : readHex4 (codes (hex 4 low) ++ more) = some (low, more) :=
    readHex4_hex (isLowSurrogate.lt hlow)
  simp only [List.cons_append, hhigh, hread, hlow, if_true]

/-- What follows a first half of a surrogate pair separates if it is written for a code point that
is no second half. -/
theorem separates_printCode (hn : n < 0x110000) (hlow : isLowSurrogate n = false)
    (more : List Nat) : Separates (printCode n ++ more) := by
  intro after hafter
  rcases printCode_cases hn with ⟨letter, hprint, hletter, -⟩ | ⟨hprint, -, -, hslash⟩ |
    ⟨hsmall, hprint⟩ | ⟨high, low, hhigh, -, -, hprint⟩
  · rw [hprint] at hafter
    cases hafter
    exact absurd rfl hletter
  · rw [hprint] at hafter
    cases hafter
    exact absurd rfl hslash
  · rw [hprint] at hafter
    cases hafter
    exact ⟨n, more, readHex4_hex hsmall, hlow⟩
  · rw [hprint, List.append_assoc] at hafter
    cases hafter
    obtain ⟨hlt, hnot⟩ := isHighSurrogate.spec hhigh
    exact ⟨high, _, readHex4_hex hlt, hnot⟩

/-- The quote that closes a text separates. -/
theorem separates_quote : Separates (0x22 :: rest) :=
  fun _ hafter => nomatch hafter

/-- A code point that neither ends a text nor starts an escape is read as itself. -/
theorem readText_self (fuel : Nat) (hrange : 0x20 ≤ n) (hquote : n ≠ 0x22) (hslash : n ≠ 0x5C) :
    readText (fuel + 1) (n :: more) =
      (readText fuel more).map fun (text, after) => (n :: text, after) := by
  have hrange : ¬ n < 0x20 := Nat.not_lt.2 hrange
  rw [readText]
  · simp [hrange, hslash]
  all_goals simp [hquote, hslash]

/-- An escape is read as its code point. -/
theorem readText_escape {letter : Nat} (fuel : Nat) (h : readEscape letter cs = some (n, more)) :
    readText (fuel + 1) (0x5C :: letter :: cs) =
      (readText fuel more).map fun (text, after) => (n :: text, after) := by
  rw [readText, h]

/-- A code point is read back from its written form, unless it is taken for the first half of a
pair. -/
theorem readText_printCode (fuel : Nat) (hn : n < 0x110000)
    (hmore : isHighSurrogate n = true → Separates more) :
    readText (fuel + 1) (printCode n ++ more) =
      (readText fuel more).map fun (text, after) => (n :: text, after) := by
  rcases printCode_cases hn with ⟨letter, hprint, hletter, hescaped⟩ |
    ⟨hprint, hrange, hquote, hslash⟩ | ⟨hsmall, hprint⟩ | ⟨high, low, hhigh, hlow, hjoin, hprint⟩
  · have hescape : readEscape letter more = some (n, more) := by
      rw [readEscape, if_neg hletter, hescaped]
      rfl
    rw [hprint]
    exact readText_escape fuel hescape
  · rw [hprint]
    exact readText_self fuel hrange hquote hslash
  · rw [hprint]
    exact readText_escape fuel (readEscape_unit hsmall hmore)
  · rw [hprint, List.append_assoc]
    exact readText_escape fuel (hjoin ▸ readEscape_pair hhigh hlow)

/-- A text is read back from its written form with its surrogate pairs joined. -/
theorem readText_print {text : List Nat} (htext : IsText text) {fuel : Nat}
    (hfuel : text.length < fuel) : readText fuel (text.flatMap printCode ++ 0x22 :: rest) =
      some (joinCodes text, rest) := by
  unfold IsText at htext
  obtain ⟨fuel, rfl⟩ : ∃ k, fuel = k + 1 := ⟨fuel - 1, by omega⟩
  fun_induction joinCodes text generalizing fuel with
  | case1 n m text hpair ih =>
    rw [Bool.and_eq_true] at hpair
    obtain ⟨hn, hm⟩ := printCode_halves hpair.1 hpair.2
    rw [List.forall_mem_cons, List.forall_mem_cons] at htext
    simp only [List.length_cons] at hfuel
    obtain ⟨fuel, rfl⟩ : ∃ k, fuel = k + 1 := ⟨fuel - 1, by omega⟩
    rw [List.flatMap_cons, List.flatMap_cons, hn, hm, List.append_assoc, List.append_assoc]
    refine (readText_escape _ (readEscape_pair hpair.1 hpair.2)).trans ?_
    rw [ih htext.2.2 fuel (by omega)]
    rfl
  | case2 n m text hpair ih =>
    rw [List.forall_mem_cons] at htext
    simp only [List.length_cons] at hfuel
    obtain ⟨fuel, rfl⟩ : ∃ k, fuel = k + 1 := ⟨fuel - 1, by omega⟩
    have hread := ih htext.2 fuel (by simpa using Nat.lt_of_succ_lt_succ hfuel)
    rw [List.flatMap_cons, List.append_assoc, readText_printCode _ (htext.1) fun hhigh => ?_,
      hread]
    · rfl
    · have hlow : isLowSurrogate m = false := by simpa [hhigh] using hpair
      rw [List.flatMap_cons, List.append_assoc]
      exact separates_printCode (htext.2 m (.head _)) hlow _
  | case3 text hshort =>
    match text, hshort with
    | [], _ => rfl
    | [n], _ =>
      obtain ⟨fuel, rfl⟩ : ∃ k, fuel = k + 1 := ⟨fuel - 1, by simp at hfuel; omega⟩
      rw [List.flatMap_cons, List.append_assoc, List.flatMap_nil, List.nil_append,
        readText_printCode _ (htext n (.head _)) fun _ => separates_quote]
      rfl
    | n :: m :: text, hshort => exact absurd rfl (hshort n m text)

/-! ## What is read -/

/-- A one-letter escape stands for an ASCII character. -/
theorem escaped?_lt {letter : Nat} (h : escaped? letter = some n) : n < 0x80 := by
  unfold escaped? at h
  split at h <;> first | (cases h; decide) | cases h

/-- An escape is read as a code point and taken off the front. One that is half of a surrogate pair
is the code unit of the escape, and behind a first half stands something that separates. -/
theorem readEscape_spec {letter : Nat} (h : readEscape letter cs = some (n, more)) :
    n < 0x110000 ∧ more ⊆ cs ∧ (isHighSurrogate n = true → Separates more) ∧
      (isLowSurrogate n = true → letter = 0x75 ∧ readHex4 cs = some (n, more)) := by
  unfold readEscape at h
  split at h
  · next hletter =>
    split at h
    · cases h
    · next unit rest hread =>
      obtain ⟨hunit, hrest⟩ := readHex4_spec hread
      split at h
      · next after =>
        split at h
        · next hhigh =>
          split at h
          · cases h
          · next low last hlow =>
            split at h
            · next hsecond =>
              rw [Option.some.injEq, Prod.mk.injEq] at h
              obtain ⟨hlt, hnothigh, hnotlow⟩ := joinSurrogates_spec hhigh hsecond h.1
              refine ⟨hlt, h.2 ▸ ?_, by simp [hnothigh], by simp [hnotlow]⟩
              have hafter : after ⊆ cs :=
                List.Subset.trans (List.subset_append_right [0x5C, 0x75] after) hrest
              exact List.Subset.trans (readHex4_spec hlow).2 hafter
            · next hsecond =>
              cases h
              refine ⟨by omega, hrest, fun _ other hother => ?_, fun _ => ⟨hletter, hread⟩⟩
              cases hother
              exact ⟨low, last, hlow, eq_false_of_ne_true hsecond⟩
        · next hhigh =>
          cases h
          exact ⟨by omega, hrest, fun h => absurd h hhigh, fun _ => ⟨hletter, hread⟩⟩
      · next hother =>
        cases h
        exact ⟨by omega, hrest, fun _ after hafter => absurd hafter (hother after),
          fun _ => ⟨hletter, hread⟩⟩
  · obtain ⟨code, hcode, hpair⟩ := Option.map_eq_some_iff.1 h
    cases hpair
    have hlt := escaped?_lt hcode
    refine ⟨by omega, List.Subset.refl _, ?_⟩
    simp only [isHighSurrogate, isLowSurrogate, Bool.and_eq_true, decide_eq_true_eq]
    omega

/-- A text that is read ends at once, or starts with a code point that comes from an escape or
stands there as itself. -/
theorem readText_cases {fuel : Nat} {text : List Nat}
    (h : readText (fuel + 1) cs = some (text, rest)) :
    (text = [] ∧ cs = 0x22 :: rest) ∨
    ∃ n tail more, text = n :: tail ∧ readText fuel more = some (tail, rest) ∧ more ⊆ cs ∧
      ((∃ letter after, cs = 0x5C :: letter :: after ∧ readEscape letter after = some (n, more)) ∨
        cs = n :: more) := by
  unfold readText at h
  split at h
  · cases h
  · cases h
  · cases h
    exact .inl ⟨rfl, rfl⟩
  · next letter after hfuel =>
    cases hfuel
    split at h
    · cases h
    · next n more hescape =>
      obtain ⟨⟨tail, last⟩, hread, hpair⟩ := Option.map_eq_some_iff.1 h
      cases hpair
      have hmore : more ⊆ 0x5C :: letter :: after :=
        List.Subset.trans (readEscape_spec hescape).2.1 (List.subset_append_right [0x5C, letter] _)
      exact .inr ⟨n, tail, more, rfl, hread, hmore, .inl ⟨letter, after, rfl, hescape⟩⟩
  · next n more _ _ hfuel =>
    cases hfuel
    split at h
    · cases h
    · obtain ⟨⟨tail, last⟩, hread, hpair⟩ := Option.map_eq_some_iff.1 h
      cases hpair
      exact .inr ⟨n, tail, more, rfl, hread, List.subset_cons_self n more, .inr rfl⟩

/-- A text that is read is taken off the front. -/
theorem readText_subset {fuel : Nat} {text : List Nat}
    (h : readText fuel cs = some (text, rest)) : rest ⊆ cs := by
  induction fuel generalizing cs text with
  | zero => cases h
  | succ fuel ih =>
    obtain ⟨-, rfl⟩ | ⟨n, tail, more, -, hread, hmore, -⟩ := readText_cases h
    · exact List.subset_cons_self _ _
    · exact List.Subset.trans (ih hread) hmore

/-- A text that is read from code points consists of code points. -/
theorem isText_of_readText {fuel : Nat} {text : List Nat} (hcs : IsText cs)
    (h : readText fuel cs = some (text, rest)) : IsText text := by
  induction fuel generalizing cs text with
  | zero => cases h
  | succ fuel ih =>
    obtain ⟨rfl, -⟩ | ⟨n, tail, more, rfl, hread, hmore, hfirst⟩ := readText_cases h
    · exact List.forall_mem_nil _
    · refine List.forall_mem_cons.2 ⟨?_, ih (fun m hm => hcs m (hmore hm)) hread⟩
      obtain ⟨letter, after, -, hescape⟩ | rfl := hfirst
      · exact (readEscape_spec hescape).1
      · exact hcs n (.head _)

/-- A text of characters that is read as one with the second half of a surrogate pair in front
starts with the escape of it. -/
theorem escape_of_isLow {fuel : Nat} {text : List Nat} (hcs : ∀ n ∈ cs, n.isValidChar)
    (h : readText fuel cs = some (n :: text, rest)) (hlow : isLowSurrogate n = true) :
    ∃ after more, cs = 0x5C :: 0x75 :: after ∧ readHex4 after = some (n, more) := by
  cases fuel with
  | zero => cases h
  | succ fuel =>
    obtain ⟨htext, -⟩ | ⟨m, tail, more, htext, -, -, hfirst⟩ := readText_cases h
    · cases htext
    · cases htext
      obtain ⟨letter, after, hcs, hescape⟩ | rfl := hfirst
      · obtain ⟨rfl, hhex⟩ := (readEscape_spec hescape).2.2.2 hlow
        exact ⟨after, more, hcs, hhex⟩
      · cases (not_surrogate (hcs n (.head _))).2.symm.trans hlow

/-- A text that is read from characters is unpaired. -/
theorem unpaired_of_readText {fuel : Nat} {text : List Nat} (hcs : ∀ n ∈ cs, n.isValidChar)
    (h : readText fuel cs = some (text, rest)) : Unpaired text := by
  induction fuel generalizing cs text with
  | zero => cases h
  | succ fuel ih =>
    obtain ⟨rfl, -⟩ | ⟨n, tail, more, rfl, hread, hmore, hfirst⟩ := readText_cases h
    · exact .nil
    · have hmore : ∀ n ∈ more, n.isValidChar := fun m hm => hcs m (hmore hm)
      refine unpaired_cons.2 ⟨fun hhigh m hm => ?_, ih hmore hread⟩
      obtain ⟨letter, after, -, hescape⟩ | rfl := hfirst
      · -- Behind the escape of a first half stands no escape of a second one.
        by_contra hlow
        rw [Bool.not_eq_false] at hlow
        obtain ⟨m', tail, rfl⟩ : ∃ m' rest, tail = m' :: rest := by
          cases tail with
          | nil => cases hm
          | cons m' rest => exact ⟨m', rest, rfl⟩
        cases hm
        obtain ⟨after, last, hsplit, hhex⟩ := escape_of_isLow hmore hread hlow
        obtain ⟨low, _, hother, hnot⟩ := (readEscape_spec hescape).2.2.1 hhigh after hsplit
        cases hhex.symm.trans hother
        cases hnot.symm.trans hlow
      · cases (not_surrogate (hcs n (.head _))).1.symm.trans hhigh

end Json

end SyncForm
