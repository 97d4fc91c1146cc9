import Mathlib.Data.List.Basic
import SyncForm.Proofs.Answer

/-!
# The types that a side offers

A type code is read in upper case, and the codes that are not offered are compared in upper case. A
text in upper case is its own upper-case form (`Text.upper_upper`), so this compares codes without
regard to case: `Side.typeChoices_eq` says which types a side offers. No character of an upper-case
form has another upper-case form: where the characters of a run go, and those of an expansion, no
run covers a character and no expansion is listed. That is checked run by run, not character by
character.
-/

namespace SyncForm

namespace Text

/-- The listed expansions as runs of one code point each. -/
def expansionRuns : List CaseRun :=
  expansions.map fun e => ⟨e.1, e.1, 2, 0⟩

/-- Whether no code point of a stretch belongs to a run; `even` says that the stretch takes every
second code point only. -/
def CaseRun.avoids (first last : Nat) (even : Bool) (r : CaseRun) : Bool :=
  Nat.blt last r.first || (Nat.blt r.last first ||
    (even && (Nat.beq r.stride 2 && Nat.beq ((first + r.first) % 2) 1)))

/-- Whether the code points to which a run moves have no other upper-case form. -/
def CaseRun.settles (r : CaseRun) : Bool :=
  decide (0 ≤ r.first + r.shift) && (Nat.beq r.stride 1 || Nat.beq r.stride 2) &&
    (caseRuns ++ expansionRuns).all (CaseRun.avoids (r.first + r.shift).toNat
      (r.last + r.shift).toNat (Nat.beq r.stride 2 || Nat.beq r.first r.last))

/-- A code point that has no other upper-case form. -/
def Settled (code : Nat) : Prop :=
  ∀ r ∈ caseRuns ++ expansionRuns, r.covers code = false

/-- A run covers the code points that it reaches from its first one. -/
theorem CaseRun.covers_iff {r : CaseRun} {code : Nat} :
    r.covers code = true ↔
      r.first ≤ code ∧ code ≤ r.last ∧ (code - r.first) % r.stride = 0 := by
  simp [covers, and_assoc]

/-- A stretch that avoids a run has no code point in it. -/
theorem CaseRun.covers_of_avoids {first last code : Nat} {even : Bool} {r : CaseRun}
    (h : avoids first last even r = true) (hfirst : first ≤ code) (hlast : code ≤ last)
    (heven : even = true → code % 2 = first % 2) : r.covers code = false := by
  refine Bool.eq_false_iff.2 fun hcovers => ?_
  obtain ⟨hlow, hhigh, hstep⟩ := covers_iff.1 hcovers
  simp only [avoids, Bool.or_eq_true, Bool.and_eq_true, Nat.blt_eq, Nat.beq_eq] at h
  rcases h with h | h | ⟨hstretch, hstride, hodd⟩
  · omega
  · omega
  · have hsame := heven hstretch
    rw [hstride] at hstep
    omega

/-- Where a run settles, the code points to which it moves have no other upper-case form. -/
theorem CaseRun.settled_of_settles {r : CaseRun} (h : r.settles = true) {code : Nat}
    (hcode : r.covers code = true) : Settled (code + r.shift).toNat := by
  obtain ⟨hlow, hhigh, hstep⟩ := covers_iff.1 hcode
  simp only [settles, Bool.and_eq_true, Bool.or_eq_true, decide_eq_true_eq, Nat.beq_eq,
    List.all_eq_true] at h
  obtain ⟨⟨hnonneg, hstride⟩, havoids⟩ := h
  intro r' hr'
  refine covers_of_avoids (havoids r' hr') (by omega) (by omega) fun heven => ?_
  simp only [Bool.or_eq_true, Nat.beq_eq] at heven
  rcases heven with htwo | hone
  · rw [htwo] at hstep
    omega
  · obtain rfl : code = r.first := by omega
    rfl

/-- All runs settle. -/
theorem settles_caseRuns : caseRuns.all CaseRun.settles = true := by
  decide +kernel

/-- All characters of the expansions settle. -/
theorem settles_expansions :
    (expansions.flatMap (·.2)).all (fun code => CaseRun.settles ⟨code, code, 2, 0⟩) = true := by
  decide +kernel

/-- The first code point, which stands for those that are no character, has no upper-case form. -/
theorem settled_zero : Settled 0 := by
  have hruns : (caseRuns ++ expansionRuns).all (fun r => !r.covers 0) = true := by
    decide +kernel
  exact fun r hr => by simpa using List.all_eq_true.1 hruns r hr

/-- The character of a settled code point, or the one that stands for it, is settled. -/
theorem Settled.ofNat {code : Nat} (h : Settled code) : Settled (Char.ofNat code).toNat := by
  have hcode : (Char.ofNat code).toNat = code ∨ (Char.ofNat code).toNat = 0 := by
    by_cases hvalid : code.isValidChar
    · exact .inl (congrArg Char.toNat (dif_pos hvalid))
    · exact .inr (congrArg Char.toNat (dif_neg hvalid))
  rcases hcode with hcode | hcode
  · rw [hcode]
    exact h
  · rw [hcode]
    exact settled_zero

/-- A settled character is its own upper-case form. -/
theorem upperChar_of_settled {c : Char} (h : Settled c.toNat) : upperChar c = [c] := by
  have hexpansion : expansions.lookup c.toNat = none := by
    refine List.lookup_eq_none_iff.2 fun e he => bne_iff_ne.2 fun hcode => ?_
    have hcovers := h ⟨e.1, e.1, 2, 0⟩ (List.mem_append_right _ (List.mem_map.2 ⟨e, he, rfl⟩))
    exact Bool.eq_false_iff.1 hcovers
      (CaseRun.covers_iff.2 ⟨Nat.le_of_eq hcode.symm, Nat.le_of_eq hcode, by simp [hcode]⟩)
  have hrun : caseRuns.find? (·.covers c.toNat) = none :=
    List.find?_eq_none.2 fun r hr => Bool.eq_false_iff.1 (h r (List.mem_append_left _ hr))
  unfold upperChar
  rw [hexpansion, hrun]

/-- An expansion that is found is listed. -/
theorem mem_expansions {code : Nat} {codes : List Nat} (h : expansions.lookup code = some codes) :
    (code, codes) ∈ expansions := by
  obtain ⟨before, after, hlist, -⟩ := List.lookup_eq_some_iff.1 h
  rw [hlist]
  exact List.mem_append_right _ (.head _)

/-- The characters of an upper-case form are settled, or the character has no other form. -/
theorem settled_upperChar (c : Char) :
    upperChar c = [c] ∨ ∀ d ∈ upperChar c, Settled d.toNat := by
  unfold upperChar
  cases hlookup : expansions.lookup c.toNat with
  | some codes =>
    refine .inr fun d hd => ?_
    obtain ⟨code, hcode, rfl⟩ := List.mem_map.1 hd
    have hmem : code ∈ expansions.flatMap (·.2) :=
      List.mem_flatMap.2 ⟨(c.toNat, codes), mem_expansions hlookup, hcode⟩
    have hsettles := List.all_eq_true.1 settles_expansions code hmem
    have hcovers : CaseRun.covers ⟨code, code, 2, 0⟩ code = true :=
      CaseRun.covers_iff.2 ⟨Nat.le_refl _, Nat.le_refl _, by simp⟩
    have hsettled := CaseRun.settled_of_settles hsettles hcovers
    simp only [Int.add_zero, Int.toNat_natCast] at hsettled
    exact hsettled.ofNat
  | none =>
    cases hfind : caseRuns.find? (·.covers c.toNat) with
    | none => exact .inl rfl
    | some r =>
      refine .inr fun d hd => ?_
      rw [List.mem_singleton.1 hd]
      have hsettles := List.all_eq_true.1 settles_caseRuns r (List.mem_of_find?_eq_some hfind)
      exact (CaseRun.settled_of_settles hsettles (by simpa using List.find?_some hfind)).ofNat

/-- A text in upper case is its own upper-case form. -/
theorem upper_upper (s : String) : upper (upper s) = upper s := by
  have hchar : ∀ c, (upperChar c).flatMap upperChar = upperChar c := by
    intro c
    rcases settled_upperChar c with hself | hsettled
    · rw [hself, List.flatMap_singleton, hself]
    · have hforms : ∀ d ∈ upperChar c, upperChar d = [d] :=
        fun d hd => upperChar_of_settled (hsettled d hd)
      rw [List.flatMap_congr hforms]
      exact List.flatMap_singleton' _
  unfold upper
  rw [String.toList_ofList, List.flatMap_assoc]
  simp only [hchar]

/-- Every character has an upper-case form. -/
theorem upperChar_ne_nil (c : Char) : upperChar c ≠ [] := by
  have hexpansions : expansions.all (fun e => !e.2.isEmpty) = true := by
    decide +kernel
  unfold upperChar
  split
  · next codes hlookup =>
    have hcodes := List.all_eq_true.1 hexpansions _ (mem_expansions hlookup)
    simpa using hcodes
  · split <;> simp

/-- The upper-case form of a text that is not empty is not empty. -/
theorem upper_ne_empty {s : String} (h : s ≠ "") : upper s ≠ "" := by
  intro hempty
  have hnil : s.toList.flatMap upperChar = [] := by
    simpa [upper] using congrArg String.toList hempty
  cases hs : s.toList with
  | nil => exact h (String.toList_eq_nil_iff.1 hs)
  | cons c rest =>
    exact upperChar_ne_nil c (List.flatMap_eq_nil_iff.1 hnil c (hs ▸ .head _))

end Text

/-! ## The codes of the types -/

namespace Checked

variable {α β : Type}

/-- Where two checks succeed, so does the first one. -/
theorem fst_of_both {a : Checked α} {b : Checked β} {x : α × β} (h : a.both b = .ok x) :
    a = .ok x.1 := by
  unfold both at h
  split at h
  · cases h
    rfl
  all_goals cases h

/-- A field that must be given is read from some value. -/
theorem exists_of_required {members : Assoc Value} {names : List String}
    {check : Value → Checked α} {x : α} (h : required members names check = .ok x) :
    ∃ v, check v = .ok x := by
  unfold required at h
  split at h
  · next name v _ =>
    unfold under at h
    cases hv : check v with
    | error issues => rw [hv] at h; cases h
    | ok y =>
      rw [hv] at h
      cases h
      exact ⟨v, hv⟩
  · cases h

end Checked

/-- The code of a type that was read is not empty and stands in upper case. -/
theorem DatasourceType.code_ofValue {v : Value} {t : DatasourceType} (h : ofValue v = .ok t) :
    t.code ≠ "" ∧ Text.upper t.code = t.code := by
  unfold ofValue at h
  cases hm : Checked.members "DatasourceType" v with
  | error issues => rw [hm] at h; cases h
  | ok m =>
  rw [hm] at h
  obtain ⟨⟨code, enabled⟩, hread, rfl⟩ := Except.of_map_eq_ok
    (f := fun p : String × Bool => ({ code := p.1, enabled := p.2 } : DatasourceType)) h
  obtain ⟨given, hgiven⟩ := Checked.exists_of_required (Checked.fst_of_both hread)
  cases hs : Checked.text given with
  | error issues => rw [hs] at hgiven; cases hgiven
  | ok s =>
  rw [hs] at hgiven
  by_cases hempty : s.isEmpty = true
  · simp [bind, Except.bind, hempty, Checked.refuse] at hgiven
  · simp only [bind, Except.bind, if_neg hempty] at hgiven
    obtain rfl : Text.upper s = code := Except.ok.inj hgiven
    refine ⟨Text.upper_ne_empty ?_, Text.upper_upper s⟩
    rintro rfl
    exact hempty rfl

/-- Whether the types that a side offers are those that can be read from. -/
def Side.sourcesOnly : Side → Bool
  | source => true
  | target => false

/-- Whether a side offers a type: it is enabled, it is not disabled in whatever case, and the source
can be read from it. -/
def Side.offers (side : Side) (disabled : List String) (t : DatasourceType) : Bool :=
  t.enabled && !disabled.any (fun code => Text.upper code == Text.upper t.code) &&
    !(side.sourcesOnly && t.code == Datasource.elasticsearch)

/-- The choices of a type are the types that the side offers, in order. -/
theorem Side.typeChoices_eq (side : Side) (disabled : List String) {ts : List DatasourceType}
    (h : ∀ t ∈ ts, ∃ v, DatasourceType.ofValue v = .ok t) :
    Fetch.typeChoices ts side.sourcesOnly (disabled.map Text.upper) =
      (ts.filter (side.offers disabled)).map fun t => ⟨.text t.code, .text t.code⟩ := by
  refine congrArg (List.map _) (List.filter_congr fun t ht => ?_)
  obtain ⟨v, hv⟩ := h t ht
  obtain ⟨hnonempty, hupper⟩ := DatasourceType.code_ofValue hv
  have hdisabled : (disabled.map Text.upper).contains t.code =
      disabled.any fun code => Text.upper code == Text.upper t.code := by
    rw [hupper, List.contains_eq_any_beq, List.any_map]
    exact congrArg disabled.any (funext fun code => BEq.comm)
  have hsource : Datasource.isSource (.text t.code) = !(t.code == Datasource.elasticsearch) := by
    simp [Datasource.isSource, Value.isTrue, Value.isText, hnonempty]
  rw [Side.offers, hdisabled, hsource, Bool.not_and, Bool.or_comm]

end SyncForm
