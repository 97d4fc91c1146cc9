import SyncForm.Proofs.Connections

/-!
# How reconciling grows the column lists

Reconciling appends to each list the records that it lacks (`Mapping.lacking`), and those are empty
and not connected. Both lists keep what they hold, so every position that was connected stays so and
none is added (`summaryOf_append`); afterwards no list lacks anything, so that reconciling again does
nothing (`Mapping.reconcile_of_settled`). `Mapping.reconcile_grows` sums up.
-/

namespace SyncForm

/-- Flags that say of the same positions that they are set differ in flags not set at the end. -/
theorem eq_append_replicate_false {xs ys : List Bool} (hlength : xs.length ≤ ys.length)
    (h : ∀ k : Nat, ys[k]? = some true ↔ xs[k]? = some true) :
    ys = xs ++ List.replicate (ys.length - xs.length) false := by
  refine List.ext_getElem? fun k => ?_
  by_cases hk : k < xs.length
  · rw [List.getElem?_append_left hk]
    have hset := h k
    rw [List.getElem?_eq_getElem hk, List.getElem?_eq_getElem (Nat.lt_of_lt_of_le hk hlength),
      Option.some.injEq, Option.some.injEq, Bool.coe_iff_coe] at hset
    rw [List.getElem?_eq_getElem hk, List.getElem?_eq_getElem (Nat.lt_of_lt_of_le hk hlength), hset]
  · have hnone : xs[k]? = none := List.getElem?_eq_none (Nat.le_of_not_lt hk)
    rw [List.getElem?_append_right (Nat.le_of_not_lt hk), List.getElem?_replicate]
    cases hy : ys[k]? with
    | none =>
      have hbehind := List.getElem?_eq_none_iff.1 hy
      rw [if_neg (by omega)]
    | some on =>
      have hlt := (List.getElem?_eq_some_iff.1 hy).1
      rw [if_pos (by omega)]
      cases on with
      | false => rfl
      | true =>
        have hset := (h k).1 hy
        rw [hnone] at hset
        cases hset

/-- The summary of lists that grow by empty records is the earlier one, followed by positions that
are not connected. -/
theorem summaryOf_append {before after : Side → List Column}
    (h : ∀ side, ∃ n, after side = before side ++ List.replicate n Column.empty) :
    ∃ n, summaryOf after = summaryOf before ++ List.replicate n false := by
  refine ⟨_, eq_append_replicate_false ?_ fun k => ?_⟩
  · obtain ⟨n, hsource⟩ := h .source
    obtain ⟨n', htarget⟩ := h .target
    simp only [summaryOf, List.length_map, List.length_zip, hsource, htarget, List.length_append]
    omega
  · rw [← joined_iff, ← joined_iff]
    refine forall_congr' fun side => ?_
    obtain ⟨n, hn⟩ := h side
    rw [hn]
    exact Carries.append_iff

/-- The number of records that reconciling appends to a list, by the lengths of both. -/
def Mapping.lacking (singleSink : Bool) (length : Side → Nat) : Side → Nat
  | .source => length .target - length .source
  | .target => if singleSink then length .source - length .target else 0

/-- Once both lists have what they lack, neither lacks anything. -/
theorem Mapping.lacking_of_grown (singleSink : Bool) (length : Side → Nat) (side : Side) :
    lacking singleSink (fun s => length s + lacking singleSink length s) side = 0 := by
  unfold lacking
  cases side with
  | source => cases singleSink <;> simp only [Bool.false_eq_true, if_true, if_false] <;> omega
  | target =>
    cases singleSink with
    | false => rfl
    | true =>
      simp only [if_true]
      omega

/-- Reconciling appends to each list the records that it lacks. -/
theorem EditorCall.records_reconcile (singleSink : Bool) (before : Side → List Column)
    (side : Side) : (EditorCall.reconcile singleSink).records before side =
      before side ++
        List.replicate (Mapping.lacking singleSink (lengths before) side) Column.empty := by
  cases side with
  | source => simp [records, edit, marks, ListEdit.apply, Mapping.lacking]
  | target => cases singleSink <;> simp [records, edit, marks, ListEdit.apply, Mapping.lacking]

namespace Mapping

variable {m : Model} {records : Side → List Column}

/-- The result of reconciling is the number of records that both lists lack. -/
theorem result_reconcile (m : Model) (singleSink : Bool) :
    (reconcile m singleSink).result =
      .ok (lacking singleSink (fun side => (Mapping.items m side).length) .source +
        lacking singleSink (fun side => (Mapping.items m side).length) .target) := by
  have hrepaired (side : Side) : Mapping.items (repairBoth m) side = Mapping.items m side :=
    items_eq (value?_repairBoth m side)
  have hblanks (n : Nat) : (blanks n).length = n := List.length_replicate
  unfold reconcile lacking
  simp only [hrepaired]
  cases singleSink with
  | false =>
    simp only [Bool.false_eq_true, if_false, List.length_append, hblanks, Nat.add_sub_cancel_left,
      Nat.sub_self, Nat.add_zero]
    split
    · next hnone => rw [hnone]
    · rfl
  | true =>
    simp only [if_true, List.length_append, hblanks]
    split
    · next hnone => exact congrArg Except.ok (by omega)
    · exact congrArg Except.ok (by omega)

/-- Where no list lacks anything reconciling does nothing. -/
theorem reconcile_of_settled (h : HoldsRecords m records) {singleSink : Bool}
    (hsettled : ∀ side, lacking singleSink (lengths records) side = 0) :
    reconcile m singleSink = { model := m, result := .ok 0 } := by
  have hlength := (shown_iff_holdsRecords.2 h).length_items
  have hsource : lengths records .target - lengths records .source = 0 := hsettled .source
  have hblanks (n : Nat) : (blanks n).length = n := List.length_replicate
  unfold reconcile
  simp only [h.lists.repairBoth]
  rw [if_pos]
  cases singleSink with
  | false =>
    simp only [Bool.false_eq_true, if_false, List.length_append, hblanks, hlength]
    omega
  | true =>
    have htarget : lengths records .source - lengths records .target = 0 := hsettled .target
    simp only [if_true, List.length_append, hblanks, hlength]
    omega

/-- Reconciling grows the column lists and touches no other key. Of any model whose lists read as
records, a value that is no list as none at all, it makes one that holds two lists of records: the
source list is as long as the longer one was, the target list as long as it or, where it does not
take free-form records, as it was. Each list is continued by empty records that are not connected,
the result is their number, and the summary is continued by positions that are not connected.
Reconciling again changes nothing. -/
theorem reconcile_grows (h : ∀ side, Mapping.items m side = (records side).map .column)
    (singleSink : Bool) :
    ∃ after : Side → List Column,
      HoldsRecords (reconcile m singleSink).model after ∧
      (after .source).length = max (records .source).length (records .target).length ∧
      (after .target).length =
        (if singleSink then (after .source).length else (records .target).length) ∧
      (∀ side, ∃ added, after side = records side ++ added ∧
        ∀ c ∈ added, c = Column.empty ∧ c.connected = false) ∧
      (reconcile m singleSink).result = .ok ((after .source).length - (records .source).length +
        ((after .target).length - (records .target).length)) ∧
      (∃ flags n, (summary m).result = .ok flags ∧
        (summary (reconcile m singleSink).model).result =
          .ok (flags ++ List.replicate n false)) ∧
      (∀ key, (∀ side : Side, key ≠ side.key) →
        (reconcile m singleSink).model.find? key = m.find? key) ∧
      reconcile (reconcile m singleSink).model singleSink =
        { model := (reconcile m singleSink).model, result := .ok 0 } := by
  have hshown : Shown m (fun _ => False) records := ⟨h, fun _ => False.elim⟩
  have hafter := hshown.reconcile singleSink
  have hholds := shown_iff_holdsRecords.1 hafter
  have hrecords := EditorCall.records_reconcile singleSink records
  have hlength : lengths ((EditorCall.reconcile singleSink).records records) =
      fun side => lengths records side + lacking singleSink (lengths records) side := by
    funext side
    rw [lengths, hrecords, List.length_append, List.length_replicate, lengths]
  have hsource : ((EditorCall.reconcile singleSink).records records .source).length =
      (records .source).length + ((records .target).length - (records .source).length) :=
    congrFun hlength .source
  have htarget : ((EditorCall.reconcile singleSink).records records .target).length =
      (records .target).length + if singleSink then
        (records .source).length - (records .target).length else 0 :=
    congrFun hlength .target
  refine ⟨_, hholds, ?_, ?_, fun side => ⟨_, hrecords side, fun c hc => ?_⟩, ?_, ?_,
    fun key hkey => find?_reconcile_of_ne m singleSink hkey, ?_⟩
  · omega
  · cases singleSink with
    | false => exact htarget
    | true =>
      rw [if_pos rfl] at htarget ⊢
      omega
  · have hempty := List.eq_of_mem_replicate hc
    exact ⟨hempty, hempty ▸ rfl⟩
  · have hitems : (fun side => (Mapping.items m side).length) = lengths records :=
      funext hshown.length_items
    rw [result_reconcile, hitems, hsource, htarget, Nat.add_sub_cancel_left,
      Nat.add_sub_cancel_left]
    rfl
  · obtain ⟨n, hn⟩ := summaryOf_append fun side => ⟨_, hrecords side⟩
    exact ⟨_, n, hshown.summary, hn ▸ hafter.summary⟩
  · refine reconcile_of_settled hholds fun side => ?_
    rw [hlength]
    exact lacking_of_grown singleSink (lengths records) side

/-- Two records of the target list, one of them flagged, and none of the source list. -/
def targetRecords : Side → List Column
  | .source => []
  | .target => [{ Column.empty with connected := true }, Column.empty]

/-- A model that holds them beside a text in place of the source list. -/
def targetModel : Model :=
  ⟨[(Keys.sourceColumns, { value := .text "" }),
    (Keys.targetColumns, { value := .list ((targetRecords .target).map .column) })]⟩

/-- The two records get partners. -/
theorem reconcile_grows_source :
    ∃ after : Side → List Column,
      HoldsRecords (reconcile targetModel true).model after ∧
      (after .source).length = 2 ∧ (after .target).length = 2 ∧
      (reconcile targetModel true).result = .ok 2 := by
  have hrecords : ∀ side, Mapping.items targetModel side = (targetRecords side).map .column := by
    intro side
    cases side <;> rfl
  obtain ⟨after, hafter, hsource, htarget, -, hresult, -⟩ := reconcile_grows hrecords true
  have htwo : (after .source).length = 2 := hsource
  rw [if_pos rfl, htwo] at htarget
  rw [htwo, htarget] at hresult
  exact ⟨after, hafter, htwo, htarget, hresult⟩

end Mapping

end SyncForm
