import Mathlib.Tactic.Common
import SyncForm.Json.Printer

/-!
# Documents on one line

What is written on one line consists of visible ASCII characters alone, whatever the texts of the
document hold (`visible_line`).
-/

namespace SyncForm.Json

/-- The code point of a visible character of ASCII, or of a blank. -/
def IsVisible (n : Nat) : Prop :=
  0x20 ≤ n ∧ n < 0x7F

instance : DecidablePred IsVisible := fun _ => inferInstanceAs (Decidable (_ ∧ _))

/-- A text is visible if a check of its code points says so. -/
theorem visible_of_all {cs : List Nat} (h : cs.all (fun n => decide (IsVisible n)) = true) :
    ∀ n ∈ cs, IsVisible n := fun n hn =>
  of_decide_eq_true (List.all_eq_true.1 h n hn)

/-- Characters are visible if their code points are. -/
theorem visible_codes {cs : List Char} (h : ∀ c ∈ cs, IsVisible c.toNat) :
    ∀ n ∈ codes cs, IsVisible n :=
  List.forall_mem_map.2 h

/-- The digits of a number are visible, in every base up to sixteen. -/
theorem visible_toDigits {base : Nat} (hlow : 1 < base) (hhigh : base ≤ 16) (n : Nat) :
    ∀ c ∈ Nat.toDigits base n, IsVisible c.toNat := by
  have hdigit : ∀ d < 16, IsVisible d.digitChar.toNat := by decide
  induction n using Nat.strongRecOn with
  | ind n ih =>
    rcases Nat.lt_or_ge n base with hlt | hge
    · rw [Nat.toDigits_of_lt_base hlt]
      exact List.forall_mem_singleton.2 (hdigit n (by omega))
    · have hlast : n % base < base := Nat.mod_lt n (by omega)
      rw [Nat.toDigits_of_base_le hlow hge, List.forall_mem_append]
      exact ⟨ih _ (Nat.div_lt_self (by omega) hlow),
        List.forall_mem_singleton.2 (hdigit _ (by omega))⟩

/-- A row of one visible character is visible. -/
theorem visible_replicate {c : Char} (hc : IsVisible c.toNat) (n : Nat) :
    ∀ d ∈ List.replicate n c, IsVisible d.toNat :=
  fun _ hd => List.eq_of_mem_replicate hd ▸ hc

/-- A fraction of nothing is visible. -/
theorem visible_pointZero : ∀ c ∈ ['.', '0'], IsVisible c.toNat :=
  List.forall_mem_cons.2 ⟨by decide, List.forall_mem_singleton.2 (by decide)⟩

/-- An escape of a code unit is visible. -/
theorem visible_escapeUnit (n : Nat) : ∀ m ∈ escapeUnit n, IsVisible m := by
  unfold escapeUnit Text.hex
  simp only [List.forall_mem_cons]
  exact ⟨by decide, by decide, visible_codes (List.forall_mem_append.2
    ⟨visible_replicate (by decide) _, visible_toDigits (by decide) (by decide) n⟩)⟩

/-- A code point is written in visible characters, whatever it is. -/
theorem visible_printCode (n : Nat) : ∀ m ∈ printCode n, IsVisible m := by
  unfold printCode
  split_ifs with h1 h2 h3 h4 h5 h6 h7 hself
  on_goal 8 => exact List.forall_mem_singleton.2 ⟨hself.1, by omega⟩
  on_goal 8 => exact visible_escapeUnit n
  on_goal 8 => exact List.forall_mem_append.2 ⟨visible_escapeUnit _, visible_escapeUnit _⟩
  all_goals exact visible_of_all rfl

/-- A text is written in visible characters. -/
theorem visible_printText (text : List Nat) : ∀ n ∈ printText text, IsVisible n := by
  unfold printText
  refine List.forall_mem_cons.2 ⟨by decide, ?_⟩
  simp only [List.forall_mem_append, List.forall_mem_flatMap]
  exact ⟨fun n _ => visible_printCode n, visible_of_all rfl⟩

/-- An integer is written in visible characters. -/
theorem visible_printInt (i : Int) : ∀ n ∈ printInt i, IsVisible n := by
  have hdigits := visible_codes (visible_toDigits (by decide : 1 < 10) (by decide) i.natAbs)
  unfold printInt
  split
  · exact List.forall_mem_cons.2 ⟨by decide, hdigits⟩
  · exact hdigits

/-- A decimal is written in visible characters. -/
theorem visible_write (d : Binary64.Decimal) : ∀ c ∈ d.write, IsVisible c.toNat := by
  have hdigits (n : Nat) := visible_toDigits (by decide : 1 < 10) (by decide) n
  have hzeros (n : Nat) := visible_replicate (by decide : IsVisible '0'.toNat) n
  have hds := hdigits d.digits
  unfold Binary64.Decimal.write
  dsimp only
  generalize Nat.toDigits 10 d.digits = ds at *
  split
  · -- An exponent behind the digits.
    refine List.forall_mem_append.2 ⟨?_, ?_⟩
    · match ds, hds with
      | [], _ => exact fun _ h => absurd h List.not_mem_nil
      | [c], hds => exact hds
      | c :: next :: rest, hds =>
        rw [List.forall_mem_cons] at hds ⊢
        exact ⟨hds.1, List.forall_mem_cons.2 ⟨by decide, hds.2⟩⟩
    · refine List.forall_mem_cons.2 ⟨by decide, List.forall_mem_cons.2 ⟨?_, ?_⟩⟩
      · split <;> decide
      · split
        · exact List.forall_mem_cons.2 ⟨by decide, hdigits _⟩
        · exact hdigits _
  · split
    · -- Zeros between the point and the digits.
      simp only [List.forall_mem_cons, List.forall_mem_append]
      exact ⟨by decide, by decide, hzeros _, hds⟩
    · split
      · -- A whole number, with zeros behind its digits.
        simp only [List.forall_mem_append]
        exact ⟨⟨hds, hzeros _⟩, visible_pointZero⟩
      · -- A point among the digits.
        simp only [List.forall_mem_cons, List.forall_mem_append]
        exact ⟨fun c hc => hds c (List.mem_of_mem_take hc), by decide,
          fun c hc => hds c (List.mem_of_mem_drop hc)⟩

/-- A floating-point number is written in visible characters. -/
theorem visible_printFloat (x : Binary64) : ∀ n ∈ printFloat x, IsVisible n := by
  cases x with
  | nan => exact visible_of_all rfl
  | infinity negative => cases negative <;> exact visible_of_all rfl
  | finite negative scale fraction =>
    have hbody : ∀ c ∈ (if Binary64.magnitude scale fraction = 0 then ['0', '.', '0']
        else (Binary64.shortest scale fraction).write), IsVisible c.toNat := by
      split
      · exact List.forall_mem_cons.2 ⟨by decide, visible_pointZero⟩
      · exact visible_write _
    rw [printFloat, codesOf, Binary64.render, String.toList_ofList]
    · refine visible_codes ?_
      split
      · exact List.forall_mem_cons.2 ⟨by decide, hbody⟩
      · exact hbody
    · intro h
      cases h
    · intro _ h
      cases h

/-- What stands between the parts of a line is visible. -/
theorem visible_between (depth : Nat) : ∀ n ∈ Style.line.between depth, IsVisible n :=
  visible_of_all rfl

mutual

/-- On one line a document is written in visible characters. -/
theorem visible_print : ∀ (d : Document) (depth : Nat), ∀ n ∈ d.print Style.line depth, IsVisible n
  | .null, _ => visible_of_all rfl
  | .bool true, _ => visible_of_all rfl
  | .bool false, _ => visible_of_all rfl
  | .int i, _ => visible_printInt i
  | .float x, _ => visible_printFloat x
  | .text text, _ => visible_printText text
  | .array [], _ => visible_of_all rfl
  | .array (item :: items), depth => by
    have hitem := visible_print item (depth + 1)
    have hitems := visible_printItems items depth
    rw [Document.print]
    refine List.forall_mem_cons.2 ⟨by decide, ?_⟩
    simp only [List.forall_mem_append]
    exact ⟨⟨⟨⟨nofun, hitem⟩, hitems⟩, nofun⟩, visible_of_all rfl⟩
  | .object [], _ => visible_of_all rfl
  | .object ((name, value) :: members), depth => by
    have hvalue := visible_print value (depth + 1)
    have hmembers := visible_printMembers members depth
    rw [Document.print]
    refine List.forall_mem_cons.2 ⟨by decide, ?_⟩
    simp only [List.forall_mem_append]
    exact ⟨⟨⟨⟨⟨⟨nofun, visible_printText name⟩, visible_of_all rfl⟩, hvalue⟩, hmembers⟩, nofun⟩,
      visible_of_all rfl⟩

/-- The same for the items of an array. -/
theorem visible_printItems : ∀ (items : List Document) (depth : Nat),
    ∀ n ∈ printItems Style.line depth items, IsVisible n
  | [], _ => nofun
  | item :: items, depth => by
    simp only [printItems, List.forall_mem_append]
    exact ⟨⟨visible_between depth, visible_print item _⟩, visible_printItems items depth⟩

/-- The same for the members of an object. -/
theorem visible_printMembers : ∀ (members : List (List Nat × Document)) (depth : Nat),
    ∀ n ∈ printMembers Style.line depth members, IsVisible n
  | [], _ => nofun
  | (name, value) :: members, depth => by
    simp only [printMembers, List.forall_mem_append]
    exact ⟨⟨⟨⟨visible_between depth, visible_printText name⟩, visible_of_all rfl⟩,
      visible_print value _⟩, visible_printMembers members depth⟩

end

/-- A document on one line consists of visible characters. -/
theorem visible_line (d : Document) : ∀ n ∈ d.line, IsVisible n :=
  visible_print d 0

end SyncForm.Json
