import Mathlib.Data.Finset.Card
import Mathlib.Data.Finset.Range
import SyncForm.Proofs.Contents

/-!
# Connections

Two records are connected when both carry the flag and stand at one position of the two lists. No
operation but connecting sets a flag (`EditorCall.carries_records`), so all of them but a removal
leave at most the connections that there are. A removal moves the records behind it up with their
flags. A flag whose partner was removed or moved away stays behind, and where two such flags meet
there is a connection that nobody made (`Mapping.connected_by_removal`). `Mapping.connections_run`
says which positions are connected after a removal, and when their number does not increase.
-/

namespace SyncForm

/-- A list has no more items of some kind than another one if their positions can be sent to
different positions of such items in the other one. -/
theorem countP_le_of_injective {α β : Type} {p : α → Bool} {q : β → Bool} {xs : List α}
    {ys : List β} {f : Nat → Nat} (hf : Function.Injective f)
    (h : ∀ k, xs[k]?.any p = true → ys[f k]?.any q = true) : xs.countP p ≤ ys.countP q := by
  have hcard {γ : Type} (r : γ → Bool) (zs : List γ) :
      zs.countP r = ((Finset.range zs.length).filter fun k => zs[k]?.any r = true).card := by
    induction zs using List.reverseRecOn with
    | nil => rfl
    | append_singleton zs z ih =>
      have hbefore : (Finset.range zs.length).filter (fun k => (zs ++ [z])[k]?.any r = true) =
          (Finset.range zs.length).filter fun k => zs[k]?.any r = true := by
        refine Finset.filter_congr fun k hk => ?_
        rw [List.getElem?_append_left (Finset.mem_range.1 hk)]
      rw [List.countP_append, List.length_append, List.length_singleton, Finset.range_add_one,
        Finset.filter_insert, hbefore, ih]
      cases hz : r z with
      | false => simp [hz]
      | true => simp [hz]
  rw [hcard p xs, hcard q ys]
  refine Finset.card_le_card_of_injOn f ?_ hf.injOn
  intro k hk
  have hq := h k (Finset.mem_filter.1 hk).2
  refine Finset.mem_coe.2 (Finset.mem_filter.2 ⟨Finset.mem_range.2 ?_, hq⟩)
  obtain ⟨b, hb, -⟩ := (Option.any_eq_true _ _).1 hq
  exact (List.getElem?_eq_some_iff.1 hb).1

/-! ## Flags -/

/-- The record at a position carries the flag. -/
def Carries (cs : List Column) (k : Nat) : Prop :=
  cs[k]?.any (·.connected) = true

namespace Carries

variable {cs : List Column} {i j k : Nat}

/-- Where flags are taken away a record carries its flag unless it is taken away. -/
theorem mark_iff {p : Nat → Bool} :
    Carries (Mapping.mark false p cs) k ↔ Carries cs k ∧ p k = false := by
  unfold Carries
  rw [Mapping.getElem?_mark]
  cases cs[k]? with
  | none => simp
  | some c => cases hp : p k <;> simp [Column.flagged]

/-- Empty records at the end of a list carry no flag. -/
theorem append_iff {n : Nat} : Carries (cs ++ List.replicate n Column.empty) k ↔ Carries cs k := by
  unfold Carries
  by_cases hk : k < cs.length
  · rw [List.getElem?_append_left hk]
  · rw [List.getElem?_append_right (Nat.le_of_not_lt hk),
      List.getElem?_eq_none (Nat.le_of_not_lt hk), List.getElem?_replicate]
    split <;> rfl

/-- Behind a record that is erased the records move up with their flags. -/
theorem eraseIdx_iff : Carries (cs.eraseIdx i) k ↔ Carries cs (if k < i then k else k + 1) := by
  unfold Carries
  rw [List.getElem?_eraseIdx]
  split <;> rfl

/-- Two records without flags that are exchanged move no flag. -/
theorem of_swap (hi : ¬ Carries cs i) (hj : ¬ Carries cs j)
    (h : Carries (Mapping.swap cs i j) k) : Carries cs k := by
  unfold Mapping.swap at h
  split at h
  · next a b ha hb =>
    unfold Carries at h hi hj
    rw [List.getElem?_set, List.getElem?_set] at h
    split at h
    · split at h
      · exact absurd (ha ▸ h) hi
      · cases h
    · split at h
      · split at h
        · exact absurd (hb ▸ h) hj
        · cases h
      · exact h
  · exact h

/-- A record that is revised keeps its flag. -/
theorem modify_iff {name payload : Option Value} :
    Carries (cs.modify i (Column.revised name payload)) k ↔ Carries cs k := by
  have hrevised (c : Column) : (c.revised name payload).connected = c.connected := by
    cases payload with
    | none => rfl
    | some payload =>
      let named : Column := { c with name := name.getD c.name, payload }
      have hnormal : named.normalise = _ := Column.normalise_flagged c.connected named
      unfold Column.revised
      dsimp only
      split
      · next accepted c' hread =>
        have hread : named.normalise = .ok (accepted, c') := hread
        rw [hread] at hnormal
        have hsame : c' = Column.flagged c.connected c' := congrArg Prod.snd (Except.ok.inj hnormal)
        rw [hsame]
        rfl
      · rfl
  unfold Carries
  rw [List.getElem?_modify]
  cases cs[k]? with
  | none => rfl
  | some c =>
    simp only [Option.map_eq_map, Option.map_some, Option.any_some]
    split
    · rw [hrevised]
    · rfl

end Carries

namespace EditorCall

variable {call : EditorCall} {before : Side → List Column}

/-- No operation but connecting and removing brings a flag to a position that has none. -/
theorem carries_records (hflag : call.flag = false) (hremove : ∀ side index, call ≠ .remove side index)
    {side : Side} {k : Nat} (h : Carries (call.records before side) k) :
    Carries (before side) k := by
  have hmarked {j : Nat} (hj : Carries (Mapping.mark call.flag (call.marks (lengths before) side)
      (before side)) j) : Carries (before side) j ∧ call.marks (lengths before) side j = false := by
    rw [hflag] at hj
    exact Carries.mark_iff.1 hj
  unfold records at h
  cases call with
  | add s =>
    simp only [edit] at h
    split at h
    · exact (hmarked (Carries.append_iff.1 h)).1
    · exact (hmarked h).1
  | remove s index => exact absurd rfl (hremove s index)
  | move s index direction =>
    simp only [edit] at h
    split at h
    · exact (hmarked h).1
    · next word hword =>
      split at h
      · next hs =>
        cases hslots : Mapping.slots? (lengths before s) index word with
        | none =>
          rw [hslots] at h
          exact (hmarked h).1
        | some slots =>
          rw [hslots] at h
          -- The records that change places have lost their flags.
          have hlost (j : Nat) (hj : j = slots.1 ∨ j = slots.2) : ¬ Carries (Mapping.mark false
              ((EditorCall.move s index direction).marks (lengths before) side) (before side)) j := by
            intro hcarries
            have hmark := (hmarked hcarries).2
            simp only [marks, hword, hs, hslots] at hmark
            rcases hj with rfl | rfl <;> simp at hmark
          exact (hmarked (Carries.of_swap (hlost _ (.inl rfl)) (hlost _ (.inr rfl)) h)).1
      · exact (hmarked h).1
  | connect index on => exact (hmarked h).1
  | connectAll on => exact (hmarked h).1
  | reconcile singleSink =>
    cases side with
    | source => exact (hmarked (Carries.append_iff.1 h)).1
    | target =>
      simp only [edit] at h
      split at h
      · exact (hmarked (Carries.append_iff.1 h)).1
      · exact (hmarked h).1
  | update s index name payload =>
    simp only [edit] at h
    split at h
    · cases hi : Mapping.slot? (lengths before s) index with
      | none =>
        rw [hi] at h
        exact (hmarked h).1
      | some i =>
        rw [hi] at h
        exact (hmarked (Carries.modify_iff.1 h)).1
    · exact (hmarked h).1
  | summary => exact (hmarked h).1
  | validate singleSink => exact (hmarked h).1

/-- After a removal the records behind the one removed have moved up with their flags; on the other
side the record at its position has lost its flag. -/
theorem carries_remove {side : Side} {index : Int} {i : Nat}
    (hi : Mapping.slot? (lengths before side) index = some i) (s : Side) (k : Nat) :
    Carries ((remove side index).records before s) k ↔
      if s = side then Carries (before s) (if k < i then k else k + 1)
      else Carries (before s) k ∧ k ≠ i := by
  unfold records
  simp only [flag, edit, marks, hi, Option.map_some, Option.getD_some]
  split
  · rw [ListEdit.apply, Carries.eraseIdx_iff, Carries.mark_iff]
    refine and_iff_left ?_
    split
    · next hk => simp [Nat.ne_of_gt hk]
    · next hk => simp; omega
  · rw [ListEdit.apply, Carries.mark_iff]
    simp [@eq_comm _ k i]

end EditorCall

/-! ## Connected positions -/

/-- The records at a position of both lists are connected. -/
def Joined (records : Side → List Column) (k : Nat) : Prop :=
  ∀ side, Carries (records side) k

/-- For each position that both lists have, whether its records are connected. -/
def summaryOf (records : Side → List Column) : List Bool :=
  ((records .source).zip (records .target)).map fun (a, b) => a.connected && b.connected

/-- A summary tells the connected positions. -/
theorem joined_iff {records : Side → List Column} {k : Nat} :
    Joined records k ↔ (summaryOf records)[k]? = some true := by
  have hboth : Joined records k ↔ Carries (records .source) k ∧ Carries (records .target) k :=
    ⟨fun h => ⟨h .source, h .target⟩, fun h side => by cases side; exacts [h.1, h.2]⟩
  rw [hboth, summaryOf, List.getElem?_map, List.zip, List.getElem?_zipWith]
  unfold Carries
  cases (records .source)[k]? with
  | none => simp
  | some a =>
    cases (records .target)[k]? with
    | none => simp
    | some b => simp

/-- The summary of a model that holds records. -/
theorem Mapping.Shown.summary {m : Model} {listed : Side → Prop} {records : Side → List Column}
    (h : Mapping.Shown m listed records) :
    (Mapping.summary m).result = .ok (summaryOf records) := by
  unfold Mapping.summary summaryOf
  dsimp only
  rw [h.repairBoth.items, h.repairBoth.items, List.zip_map, mapM_eq_ok, List.forall₂_map_left_iff,
    List.forall₂_map_right_iff]
  refine List.forall₂_same.2 fun pair _ => ?_
  obtain ⟨⟨_, _, _, flagged, _⟩, b⟩ := pair
  cases flagged <;> rfl

/-- There are no more connected positions than before if they can be sent to different positions
that were connected before. -/
theorem count_summaryOf_le {before after : Side → List Column} {f : Nat → Nat}
    (hf : Function.Injective f) (h : ∀ k, Joined after k → Joined before (f k)) :
    (summaryOf after).count true ≤ (summaryOf before).count true := by
  have hany (flags : List Bool) (k : Nat) : flags[k]?.any (· == true) = true ↔
      flags[k]? = some true := by
    cases flags[k]? with
    | none => simp
    | some flag => simp
  refine countP_le_of_injective hf fun k hk => ?_
  rw [hany, ← joined_iff]
  exact h k (joined_iff.2 ((hany _ k).1 hk))

/-- The positions that remain when one is left out, in order. -/
def skip (i k : Nat) : Nat :=
  if k < i then k else k + 1

/-- Different positions remain different. -/
theorem skip_injective (i : Nat) : Function.Injective (skip i) := by
  intro k k' h
  unfold skip at h
  split at h <;> split at h <;> omega

namespace EditorCall

variable {before : Side → List Column}

/-- After a removal the positions before the one removed are connected as they were; those behind it
are connected where two flags have met. -/
theorem joined_remove {side : Side} {index : Int} {i : Nat}
    (hi : Mapping.slot? (lengths before side) index = some i) (k : Nat) :
    Joined ((remove side index).records before) k ↔ k < i ∧ Joined before k ∨
      i < k ∧ ∀ s, Carries (before s) (if s = side then k + 1 else k) := by
  have hother : ∃ other, other ≠ side := by
    cases side
    · exact ⟨.target, by decide⟩
    · exact ⟨.source, by decide⟩
  unfold Joined
  simp only [carries_remove hi]
  constructor
  · intro h
    obtain ⟨other, hne⟩ := hother
    have hk : k ≠ i := by
      have hcarries := h other
      rw [if_neg hne] at hcarries
      exact hcarries.2
    rcases Nat.lt_or_gt_of_ne hk with hlt | hgt
    · refine .inl ⟨hlt, fun s => ?_⟩
      have hs := h s
      rw [if_pos hlt] at hs
      split at hs
      · exact hs
      · exact hs.1
    · refine .inr ⟨hgt, fun s => ?_⟩
      have hs := h s
      rw [if_neg (Nat.not_lt_of_gt hgt)] at hs
      split
      · rwa [if_pos ‹_›] at hs
      · rw [if_neg ‹_›] at hs
        exact hs.1
  · rintro (⟨hlt, h⟩ | ⟨hgt, h⟩) s
    · rw [if_pos hlt]
      split
      · exact h s
      · exact ⟨h s, Nat.ne_of_lt hlt⟩
    · have hs := h s
      rw [if_neg (Nat.not_lt_of_gt hgt)]
      split
      · rwa [if_pos ‹_›] at hs
      · rw [if_neg ‹_›] at hs
        exact ⟨hs, Nat.ne_of_gt hgt⟩

/-- A removal makes no connection if behind the record removed all flags of some list belong to
connections. -/
theorem count_remove_le {side : Side} {index : Int} {i : Nat}
    (hi : Mapping.slot? (lengths before side) index = some i) {s : Side}
    (hs : ∀ k, i < k → Carries (before s) k → Joined before k) :
    (summaryOf ((remove side index).records before)).count true ≤
      (summaryOf before).count true := by
  by_cases hside : s = side
  · refine count_summaryOf_le (skip_injective i) fun k hk => ?_
    unfold skip
    rcases (joined_remove hi k).1 hk with ⟨hlt, h⟩ | ⟨hgt, h⟩
    · rwa [if_pos hlt]
    · rw [if_neg (Nat.not_lt_of_gt hgt)]
      have hcarries := h s
      rw [if_pos hside] at hcarries
      exact hs (k + 1) (Nat.lt_succ_of_lt hgt) hcarries
  · refine count_summaryOf_le Function.injective_id fun k hk => ?_
    rcases (joined_remove hi k).1 hk with ⟨hlt, h⟩ | ⟨hgt, h⟩
    · exact h
    · have hcarries := h s
      rw [if_neg hside] at hcarries
      exact hs k hgt hcarries

/-- A removal that misses its list changes no record. -/
theorem records_remove_none {side : Side} {index : Int}
    (hi : Mapping.slot? (lengths before side) index = none) :
    (remove side index).records before = before := by
  funext s
  simp [records, edit, marks, hi, ListEdit.apply]

/-- No operation but connecting makes more records of a list carry the flag. -/
theorem countP_records_le {call : EditorCall} (hflag : call.flag = false) (s : Side) :
    (call.records before s).countP (·.connected) ≤ (before s).countP (·.connected) := by
  by_cases hremove : ∃ side index, call = .remove side index
  · obtain ⟨side, index, rfl⟩ := hremove
    cases hi : Mapping.slot? (lengths before side) index with
    | none => rw [records_remove_none hi]
    | some i =>
      by_cases hs : s = side
      · refine countP_le_of_injective (skip_injective i) fun k hk => ?_
        have hcarries := (carries_remove hi s k).1 hk
        rwa [if_pos hs] at hcarries
      · refine countP_le_of_injective Function.injective_id fun k hk => ?_
        have hcarries := (carries_remove hi s k).1 hk
        rw [if_neg hs] at hcarries
        exact hcarries.1
  · refine countP_le_of_injective Function.injective_id fun k hk => ?_
    exact carries_records hflag (fun side index hcall => hremove ⟨side, index, hcall⟩) hk

/-- Without connecting no record comes to carry the flag. -/
theorem countP_recordsAll_le {calls : List EditorCall} (hcalls : ∀ call ∈ calls, call.flag = false)
    (s : Side) :
    (recordsAll calls before s).countP (·.connected) ≤ (before s).countP (·.connected) := by
  induction calls generalizing before with
  | nil => exact Nat.le_refl _
  | cons call rest ih =>
    exact (ih fun other hother => hcalls other (.tail _ hother)).trans
      (countP_records_le (hcalls call (.head _)) s)

end EditorCall

namespace Mapping

open EditorCall

/-- Only connecting sets flags, and apart from it only a removal can make a connection. In every
state that a run of operations reaches from two lists of records, no operation but connecting makes
more records of a list carry the flag, and none but connecting and a removal makes more positions
connected. After a removal the positions before the one removed are connected as they were, it
itself is not, and a position behind it is connected where the flag that has moved up meets a flag
of the other list; there are no more connected positions than before if behind the record removed
all flags of one of the lists belong to connections. From lists without flags a run without
connecting reaches no connection. -/
theorem connections_run {m : Model} {records : Side → List Column} (h : HoldsRecords m records)
    (calls : List EditorCall) :
    ∃ reached, HoldsRecords (performAll m calls) reached ∧
      (summary (performAll m calls)).result = .ok (summaryOf reached) ∧
      (∀ call : EditorCall, call.flag = false →
        ∃ after, HoldsRecords (call.perform (performAll m calls)).model after ∧
          (summary (call.perform (performAll m calls)).model).result = .ok (summaryOf after) ∧
          (∀ side, (after side).countP (·.connected) ≤ (reached side).countP (·.connected)) ∧
          ((∀ side index, call ≠ .remove side index) →
            (summaryOf after).count true ≤ (summaryOf reached).count true) ∧
          ∀ side index, call = .remove side index →
            (OutOfRange (lengths reached side) index → after = reached) ∧
            ∀ i : Nat, index = i → i < lengths reached side →
              (∀ k, (summaryOf after)[k]? = some true ↔
                k < i ∧ (summaryOf reached)[k]? = some true ∨
                i < k ∧ ∀ s, Carries (reached s) (if s = side then k + 1 else k)) ∧
              ∀ s, (∀ k, i < k → Carries (reached s) k → (summaryOf reached)[k]? = some true) →
                (summaryOf after).count true ≤ (summaryOf reached).count true) ∧
      ((∀ side, ∀ c ∈ records side, c.connected = false) → (∀ call ∈ calls, call.flag = false) →
        (summaryOf reached).count true = 0) := by
  have hshown := shown_performAll (shown_iff_holdsRecords.2 h) calls
  refine ⟨_, shown_iff_holdsRecords.1 hshown, hshown.summary, fun call hflag => ?_, ?_⟩
  · have hafter := shown_perform hshown call
    refine ⟨_, shown_iff_holdsRecords.1 hafter, hafter.summary, countP_records_le hflag,
      fun hremove => ?_, ?_⟩
    · exact count_summaryOf_le Function.injective_id fun k hk s =>
        carries_records hflag hremove (hk s)
    · rintro side index rfl
      refine ⟨fun hout => records_remove_none (slot?_eq_none.2 hout), fun i hindex hlt => ?_⟩
      have hi := slot?_eq_some.2 ⟨hindex, hlt⟩
      refine ⟨fun k => ?_, fun s hs => count_remove_le hi (s := s) fun k hk hcarries => ?_⟩
      · rw [← joined_iff, ← joined_iff]
        exact joined_remove hi k
      · exact joined_iff.2 (hs k hk hcarries)
  · intro hrecords hcalls
    rw [List.count_eq_zero]
    intro hconnected
    obtain ⟨k, hk⟩ := List.mem_iff_getElem?.1 hconnected
    have hcarries := joined_iff.2 hk .source
    have hnone : (recordsAll calls records .source).countP (·.connected) ≤ 0 :=
      (countP_recordsAll_le hcalls .source).trans
        (Nat.le_of_eq (List.countP_eq_zero.2 fun c hc => by simp [hrecords .source c hc]))
    obtain ⟨c, hc, hflag⟩ := (Option.any_eq_true _ _).1 hcarries
    exact List.countP_eq_zero.1 (Nat.le_zero.1 hnone) c (List.mem_of_getElem? hc) hflag

/-- Three records on either side, none of them connected. -/
def threeRecords (_ : Side) : List Column :=
  ["a", "b", "c"].map fun name => { Column.empty with name := .text name }

/-- A model that holds the three records on either side. -/
def threeRecordsModel : Model :=
  ⟨[(Keys.sourceColumns, { value := .list ((threeRecords .source).map .column) }),
    (Keys.targetColumns, { value := .list ((threeRecords .target).map .column) })]⟩

/-- A move after a connection makes no other one. -/
theorem connections_run_move :
    HoldsRecords threeRecordsModel threeRecords ∧ ∃ before after,
      (summary (performAll threeRecordsModel [.connect 2 true])).result = .ok before ∧
      (summary (perform (performAll threeRecordsModel [.connect 2 true])
        (.move .source 1 (.text "down"))).model).result = .ok after ∧
      after.count true ≤ before.count true := by
  have hrecords : HoldsRecords threeRecordsModel threeRecords := by
    intro side
    cases side <;> rfl
  obtain ⟨reached, -, hbefore, hcalls, -⟩ := connections_run hrecords [.connect 2 true]
  obtain ⟨after, -, hafter, -, hcount, -⟩ := hcalls (.move .source 1 (.text "down")) rfl
  exact ⟨hrecords, _, _, hbefore, hafter, hcount fun _ _ => EditorCall.noConfusion⟩

/-- The last records are connected; then the first source record is removed, which ends the
connection, and the first target record, which connects the last ones again. -/
theorem connected_by_removal :
    HoldsRecords threeRecordsModel threeRecords ∧
      (∀ side, ∀ c ∈ threeRecords side, c.connected = false) ∧
      (summary (performAll threeRecordsModel [.connect 2 true, .remove .source 0])).result =
        .ok [false, false] ∧
      (summary (perform (performAll threeRecordsModel [.connect 2 true, .remove .source 0])
        (.remove .target 0)).model).result = .ok [false, true] := by
  have hrecords : HoldsRecords threeRecordsModel threeRecords := by
    intro side
    cases side <;> rfl
  have hshown := shown_performAll (shown_iff_holdsRecords.2 hrecords)
    [.connect 2 true, .remove .source 0]
  refine ⟨hrecords, ?_, hshown.summary, (shown_perform hshown (.remove .target 0)).summary⟩
  intro side c hc
  obtain ⟨name, -, rfl⟩ := List.mem_map.1 hc
  rfl

end Mapping

end SyncForm
