import Mathlib.Data.List.TakeWhile
import SyncForm.Fault
import SyncForm.Proofs.Joining
import SyncForm.Proofs.Numerals

/-!
# What is read

Every document that is read from code points is legible and has no name twice (`json_of_read`). One
that is read from characters holds no surrogate pair in two halves (`unpaired_of_read`).
-/

namespace SyncForm.Json

variable {fuel : Nat} {cs rest : List Nat}

/-! ## Numbers -/

/-- Digits spell a number below the power of ten that they reach up to. -/
theorem ofDigits_lt {ds : List Char} (hds : ∀ c ∈ ds, c.isDigit = true) :
    Text.ofDigits ds < 10 ^ ds.length := by
  induction ds using List.reverseRecOn with
  | nil => decide
  | append_singleton ds d ih =>
    have hinit := ih fun c hc => hds c (List.mem_append_left _ hc)
    have hlast : Text.ofDigits [d] < 10 := by
      have hd := hds d (List.mem_append_right _ (.head _))
      have htoNat : d.toNat = d.val.toNat := rfl
      simp only [Char.isDigit, Bool.and_eq_true, decide_eq_true_eq, ge_iff_le,
        UInt32.le_iff_toNat_le, ← htoNat] at hd
      simp [Text.ofDigits] at hd ⊢
      omega
    rw [Text.ofDigits_append, List.length_append, List.length_singleton, pow_one, pow_succ]
    omega

/-- Digits spell a number that has no more digits. -/
theorem length_toDigits_ofDigits {ds : List Char} (hds : ∀ c ∈ ds, c.isDigit = true)
    (hne : ds ≠ []) : (Nat.toDigits 10 (Text.ofDigits ds)).length ≤ ds.length :=
  (Nat.length_toDigits_le_iff (by decide) (List.length_pos_of_ne_nil hne)).2 (ofDigits_lt hds)

/-- A run of digits consists of digits, at least one, and is taken off the front. -/
theorem readDigits_spec {ds : List Char} (h : readDigits cs = some (ds, rest)) :
    (∀ c ∈ ds, c.isDigit = true) ∧ ds ≠ [] ∧ rest ⊆ cs := by
  unfold readDigits at h
  split at h
  · cases h
  · next hne =>
    cases h
    refine ⟨List.forall_mem_map.2 fun n hn => ?_, by simpa using hne,
      (List.dropWhile_suffix _).subset⟩
    have hdigit : isDigit n = true := List.mem_takeWhile_imp hn
    have hvalid : n.isValidChar := by
      simp only [isDigit, Bool.and_eq_true, decide_eq_true_eq] at hdigit
      exact .inl (by omega)
    have hcode : (Char.ofNat n).toNat = n := congrArg Char.toNat (dif_pos hvalid)
    rwa [← isDigit_toNat, hcode]

/-- A fraction is taken off the front. -/
theorem readFraction_subset : (readFraction cs).2 ⊆ cs := by
  unfold readFraction
  split
  · next more =>
    cases hread : readDigits more with
    | none => exact List.Subset.refl _
    | some found =>
      exact List.Subset.trans (readDigits_spec hread).2.2 (List.subset_cons_self _ more)
  · exact List.Subset.refl _

/-- An exponent is taken off the front. -/
theorem readExponent_subset : (readExponent cs).2 ⊆ cs := by
  have hread {digits : List Nat} {found : List Char × List Nat} (hdigits : digits ⊆ cs)
      (h : readDigits digits = some found) : found.2 ⊆ cs :=
    List.Subset.trans (readDigits_spec h).2.2 hdigits
  unfold readExponent
  split
  · next n more =>
    have hmore : more ⊆ n :: more := List.subset_cons_self n more
    split
    · dsimp only
      split
      · next found =>
        refine hread ?_ found
        split
        · next last => exact List.Subset.trans (List.subset_cons_self _ last) hmore
        · next last => exact List.Subset.trans (List.subset_cons_self _ last) hmore
        · exact hmore
      · exact List.Subset.refl _
    · exact List.Subset.refl _
  · exact List.Subset.refl _

/-- What is read as a number is an integer with no more digits than are read, or a floating-point
number. It is taken off the front. -/
theorem readNumber_spec {negative : Bool} {d : Document}
    (h : readNumber negative cs = .ok (d, rest)) :
    ((∃ i, d = .int i ∧ Sized i) ∨ ∃ x, d = .float x) ∧ rest ⊆ cs := by
  unfold readNumber at h
  dsimp only at h
  split at h
  · cases h
  · next digits after hwhole =>
    have hdigits : (∀ c ∈ digits, c.isDigit = true) ∧ digits ≠ [] ∧ after ⊆ cs := by
      split at hwhole
      · next more =>
        cases hwhole
        exact ⟨by simp, by simp, List.subset_cons_self _ _⟩
      · exact readDigits_spec hwhole
    have hrest : (readExponent (readFraction after).2).2 ⊆ cs :=
      List.Subset.trans readExponent_subset (List.Subset.trans readFraction_subset hdigits.2.2)
    split at h
    · split at h
      · cases h
      · next hlimit =>
        cases h
        have hlength := length_toDigits_ofDigits hdigits.1 hdigits.2.1
        have hsize : (if negative = true then -(Text.ofDigits digits : Int)
            else Text.ofDigits digits).natAbs = Text.ofDigits digits := by
          split <;> simp
        refine ⟨.inl ⟨_, rfl, ?_⟩, hrest⟩
        rw [Sized, hsize]
        omega
    · cases h
      exact ⟨.inr ⟨_, rfl⟩, hrest⟩

/-! ## Documents -/

/-- A word is taken off the front. -/
theorem dropWord_subset {word : List Nat} (h : dropWord word cs = some rest) : rest ⊆ cs := by
  fun_induction dropWord word cs with
  | case1 cs =>
    cases h
    exact List.Subset.refl _
  | case2 w word c cs hc ih => exact List.Subset.trans (ih h) (List.subset_cons_self c cs)
  | case3 w word c cs hc => cases h
  | case4 => cases h

/-- White space is taken off the front. -/
theorem skipSpace_subset (cs : List Nat) : skipSpace cs ⊆ cs :=
  (List.dropWhile_suffix _).subset

/-- What stands behind a mark is taken off the front, the white space around the mark too. -/
theorem subset_of_skipSpace {n : Nat} {after : List Nat} (h : skipSpace cs = n :: after) :
    after ⊆ cs ∧ skipSpace after ⊆ cs := by
  have hafter : after ⊆ cs :=
    List.Subset.trans (h ▸ List.subset_cons_self n after) (skipSpace_subset cs)
  exact ⟨hafter, List.Subset.trans (skipSpace_subset after) hafter⟩

section

variable {good : Nat → Prop} {texts : List Nat → Prop}

/-- Every word stands for a document without parts. -/
theorem readWord_spec {d : Document} (h : readWord cs = some (d, rest)) :
    d.Obeys (.read texts) ∧ rest ⊆ cs := by
  obtain ⟨⟨word, found⟩, hword, hdrop⟩ := List.exists_of_findSome?_eq_some h
  obtain ⟨after, hafter, hpair⟩ := Option.map_eq_some_iff.1 hdrop
  cases hpair
  refine ⟨?_, dropWord_subset hafter⟩
  simp only [words, List.mem_cons, Prod.mk.injEq, List.not_mem_nil, or_false] at hword
  rcases hword with ⟨-, rfl⟩ | ⟨-, rfl⟩ | ⟨-, rfl⟩ | ⟨-, rfl⟩ | ⟨-, rfl⟩ | ⟨-, rfl⟩ <;> trivial

/-- Writing a member keeps the names of an object apart. -/
theorem obeys_putMember {done : List (List Nat × Document)} {name : List Nat} {value : Document}
    (hdone : (Document.object done).Obeys (.read texts)) (hname : texts name)
    (hvalue : value.Obeys (.read texts)) :
    (Document.object (putMember done name value)).Obeys (.read texts) := by
  refine ⟨?_, membersObey_putMember hdone.2 hname hvalue⟩
  have hnodup : (done.map (·.1)).Nodup := hdone.1
  change ((putMember done name value).map (·.1)).Nodup
  rw [names_putMember]
  split
  · exact hnodup
  · next hnew => exact hnodup.append (List.nodup_singleton _) (by simpa using hnew)

variable (good texts) in
/-- From good code points only texts with a property are read. -/
def ReadsTexts : Prop :=
  ∀ (fuel : Nat) (cs text rest : List Nat), (∀ n ∈ cs, good n) →
    readText fuel cs = some (text, rest) → texts text

variable (good texts) in
/-- With so much fuel all texts of what is read from good code points have a property, and what is
read is taken off the front. -/
def ReadsObeying (fuel : Nat) : Prop :=
  ∀ (cs : List Nat) (d : Document) (rest : List Nat), (∀ n ∈ cs, good n) →
    readValue fuel cs = .ok (d, rest) → d.Obeys (.read texts) ∧ rest ⊆ cs

/-- The items that are read satisfy what documents do. -/
theorem readItems_spec (hread : ∀ k < fuel, ReadsObeying good texts k) {items : List Document}
    (hcs : ∀ n ∈ cs, good n) (h : readItems fuel cs = .ok (items, rest)) :
    ItemsObey (.read texts) items ∧ rest ⊆ cs := by
  induction fuel generalizing cs items with
  | zero => cases h
  | succ fuel ih =>
    rw [readItems] at h
    split at h
    · cases h
    · next item after hitem =>
      obtain ⟨hitem, hafter⟩ := hread fuel (Nat.lt_succ_self _) _ _ _ hcs hitem
      split at h
      · next hskip =>
        cases h
        exact ⟨⟨hitem, trivial⟩, List.Subset.trans (subset_of_skipSpace hskip).1 hafter⟩
      · next more hskip =>
        obtain ⟨⟨others, last⟩, hothers, hpair⟩ := Except.of_map_eq_ok h
        cases hpair
        have hmore := List.Subset.trans (subset_of_skipSpace hskip).2 hafter
        obtain ⟨hothers, hlast⟩ := ih (fun k hk => hread k (Nat.lt_succ_of_lt hk))
          (fun n hn => hcs n (hmore hn)) hothers
        exact ⟨⟨hitem, hothers⟩, List.Subset.trans hlast hmore⟩
      · cases h

/-- The members that are read have different names and satisfy what documents do, if those read
before do. -/
theorem readMembers_spec (htexts : ReadsTexts good texts)
    (hread : ∀ k < fuel, ReadsObeying good texts k) {done members : List (List Nat × Document)}
    (hdone : (Document.object done).Obeys (.read texts)) (hcs : ∀ n ∈ cs, good n)
    (h : readMembers fuel done cs = .ok (members, rest)) :
    (Document.object members).Obeys (.read texts) ∧ rest ⊆ cs := by
  induction fuel generalizing cs done with
  | zero => cases h
  | succ fuel ih =>
    unfold readMembers at h
    split at h
    · next first =>
      have hfirst : first ⊆ 0x22 :: first := List.subset_cons_self _ first
      split at h
      · cases h
      · next name behind hname =>
        have hbehind := List.Subset.trans (readText_subset hname) hfirst
        have hname := htexts _ _ _ _ (fun n hn => hcs n (hfirst hn)) hname
        split at h
        · next colon hcolon =>
          have hcolon := List.Subset.trans (subset_of_skipSpace hcolon).2 hbehind
          split at h
          · cases h
          · next value after hvalue =>
            obtain ⟨hvalue, hafter⟩ := hread fuel (Nat.lt_succ_self _) _ _ _
              (fun n hn => hcs n (hcolon hn)) hvalue
            have hafter := List.Subset.trans hafter hcolon
            have hput := obeys_putMember hdone hname hvalue
            split at h
            · next hskip =>
              cases h
              exact ⟨hput, List.Subset.trans (subset_of_skipSpace hskip).1 hafter⟩
            · next more hskip =>
              have hmore := List.Subset.trans (subset_of_skipSpace hskip).2 hafter
              obtain ⟨hmembers, hlast⟩ := ih (fun k hk => hread k (Nat.lt_succ_of_lt hk)) hput
                (fun n hn => hcs n (hmore hn)) h
              exact ⟨hmembers, List.Subset.trans hlast hmore⟩
            · cases h
        · cases h
    · cases h

/-- With any fuel all texts of what is read have the property that read texts have. -/
theorem readsObeying (htexts : ReadsTexts good texts) (fuel : Nat) :
    ReadsObeying good texts fuel := by
  induction fuel using Nat.strongRecOn with
  | ind fuel ih =>
    intro cs d rest hcs h
    cases fuel with
    | zero => cases h
    | succ fuel =>
      have hbelow (k : Nat) (hk : k < fuel) : ReadsObeying good texts k :=
        ih k (Nat.lt_succ_of_lt hk)
      have hempty : (Document.object []).Obeys (.read texts) := ⟨List.nodup_nil, trivial⟩
      have htail (n : Nat) (more : List Nat) : skipSpace more ⊆ n :: more :=
        List.Subset.trans (skipSpace_subset more) (List.subset_cons_self n more)
      unfold readValue at h
      split at h
      · next more =>
        have hmore : more ⊆ 0x22 :: more := List.subset_cons_self _ more
        split at h
        · next htext =>
          cases h
          exact ⟨htexts _ _ _ _ (fun n hn => hcs n (hmore hn)) htext,
            List.Subset.trans (readText_subset htext) hmore⟩
        · cases h
      · next more =>
        split at h
        · next hskip =>
          cases h
          exact ⟨trivial, List.Subset.trans (hskip ▸ List.subset_cons_self _ _) (htail _ more)⟩
        · obtain ⟨⟨items, last⟩, hitems, hpair⟩ := Except.of_map_eq_ok h
          cases hpair
          obtain ⟨hobeys, hlast⟩ := readItems_spec hbelow
            (fun n hn => hcs n (htail _ more hn)) hitems
          exact ⟨hobeys, List.Subset.trans hlast (htail _ more)⟩
      · next more =>
        split at h
        · next hskip =>
          cases h
          exact ⟨hempty, List.Subset.trans (hskip ▸ List.subset_cons_self _ _) (htail _ more)⟩
        · obtain ⟨⟨members, last⟩, hmembers, hpair⟩ := Except.of_map_eq_ok h
          cases hpair
          obtain ⟨hobeys, hlast⟩ := readMembers_spec htexts hbelow hempty
            (fun n hn => hcs n (htail _ more hn)) hmembers
          exact ⟨hobeys, List.Subset.trans hlast (htail _ more)⟩
      · have hnumber {negative : Bool} {start : List Nat} (hstart : start ⊆ cs)
            (h : readNumber negative start = .ok (d, rest)) :
            d.Obeys (.read texts) ∧ rest ⊆ cs := by
          obtain ⟨⟨i, rfl, hi⟩ | ⟨x, rfl⟩, hrest⟩ := readNumber_spec h
          · exact ⟨hi, List.Subset.trans hrest hstart⟩
          · exact ⟨trivial, List.Subset.trans hrest hstart⟩
        split at h
        · next hword =>
          cases h
          exact readWord_spec hword
        · split at h
          · exact hnumber (List.subset_cons_self _ _) h
          · exact hnumber (List.Subset.refl _) h

/-- All texts of what is read have the property that read texts have. -/
theorem obeys_of_read (htexts : ReadsTexts good texts) {d : Document} (hcs : ∀ n ∈ cs, good n)
    (h : readCodes cs = .ok d) : d.Obeys (.read texts) := by
  unfold readCodes at h
  split at h
  · cases h
  · next hread =>
    split at h
    · cases h
      have hskip : ∀ n ∈ skipSpace cs, good n := fun n hn => hcs n (skipSpace_subset cs hn)
      exact (readsObeying htexts _ _ _ _ hskip hread).1
    · cases h

end

/-- What is read from code points is legible and has no name twice. -/
theorem json_of_read {d : Document} (hcs : IsText cs) (h : readCodes cs = .ok d) :
    d.Obeys .json :=
  obeys_of_read (fun _ _ _ _ hcs => isText_of_readText hcs) hcs h

/-- What is read from characters holds no surrogate pair in two halves. -/
theorem unpaired_of_read {d : Document} (hcs : ∀ n ∈ cs, n.isValidChar)
    (h : readCodes cs = .ok d) : d.Obeys .unpaired := by
  have hread := obeys_of_read (fun _ _ _ _ hcs => unpaired_of_readText hcs) hcs h
  have hunpaired : Law.unpaired.FollowsFrom (.read Unpaired) (.read Unpaired) :=
    ⟨fun _ _ _ => trivial, fun _ h _ => h, fun _ h _ => h, fun _ _ _ _ => trivial⟩
  exact hunpaired.obeys hread hread

end SyncForm.Json
