import SyncForm.Proofs.InFlight

/-!
# What reconciling does to the column lists

Whenever the resolver writes one of the column lists the form reconciles both. Reconciling touches
no other key (`Form.follow_listsOnly`), and a list that it touches only grows by empty records at
its end: `Padded` says so of a list of the model, and the lemmas after it say that the steps of a
resolver which do not write the list keep it padded.
-/

namespace SyncForm

/-- The lists of the two sides are held under different keys. -/
theorem Side.key_inj {side side' : Side} : side.key = side'.key ↔ side = side' := by
  cases side <;> cases side' <;> decide

/-- The partitions of the two sides are held under different keys. -/
theorem Side.partitionsKey_inj {side side' : Side} :
    side.partitionsKey = side'.partitionsKey ↔ side = side' := by
  cases side <;> cases side' <;> decide

namespace Mapping

variable (m : Model) {side : Side}

/-- Whether the target takes free-form records depends on its type alone. -/
theorem isSingleSink_congr {m m' : Model}
    (h : m'.value? Keys.targetType = m.value? Keys.targetType) :
    isSingleSink m' = isSingleSink m :=
  congrArg Datasource.isSingleSink (Model.get_congr h)

/-- A repair leaves all keys but its own. -/
theorem find?_repair (side : Side) {key : String} (h : key ≠ side.key) :
    (repair m side).find? key = m.find? key := by
  unfold repair
  split
  · rfl
  · rw [Model.find?_clear, if_neg h.symm]

/-- A repair leaves a list. -/
theorem repair_of_list {items : List Value} (h : m.value? side.key = some (.list items)) :
    repair m side = m := by
  unfold repair
  rw [Model.get_of_value? h]

/-- Repairing both sides leaves a list. -/
theorem find?_repairBoth {items : List Value} (h : m.value? side.key = some (.list items)) :
    (repairBoth m).find? side.key = m.find? side.key := by
  unfold repairBoth
  cases side with
  | source =>
    rw [repair_of_list m h]
    exact find?_repair m .target (by decide)
  | target =>
    have hother : (repair m .source).find? Side.target.key = m.find? Side.target.key :=
      find?_repair m .source (by decide)
    have hlist : (repair m .source).value? Side.target.key = some (.list items) :=
      (Model.value?_congr hother).trans h
    rw [repair_of_list _ hlist, hother]

/-- The entries of a list. -/
theorem items_eq {m : Model} {items : List Value} (h : m.value? side.key = some (.list items)) :
    Mapping.items m side = items := by
  unfold Mapping.items
  rw [Model.get_of_value? h]

/-- Reconciling repairs the lists and may append empty records to each, to the target only where it
takes free-form records. -/
theorem reconcile_cases (sink : Bool) :
    (reconcile m sink).model = repairBoth m ∨ ∃ grown grown', (sink = false → grown' = 0) ∧
      (reconcile m sink).model = store (store (repairBoth m) .source
          (Mapping.items (repairBoth m) .source ++ blanks grown)) .target
        (Mapping.items (repairBoth m) .target ++ blanks grown') := by
  unfold reconcile
  cases sink with
  | false =>
    simp only [Bool.false_eq_true, if_false]
    split
    · exact .inl rfl
    · exact .inr ⟨_, 0, fun _ => rfl, congrArg (store _ Side.target) (List.append_nil _).symm⟩
  | true =>
    simp only [if_true]
    split
    · exact .inl rfl
    · exact .inr ⟨_, _, fun hsink => absurd hsink (by decide), rfl⟩

/-- Reconciling leaves all keys but those of the two lists. -/
theorem find?_reconcile_of_ne (sink : Bool) {key : String} (h : ∀ side : Side, key ≠ side.key) :
    (reconcile m sink).model.find? key = m.find? key := by
  have hrepair : (repairBoth m).find? key = m.find? key := by
    rw [repairBoth, find?_repair _ _ (h .target), find?_repair _ _ (h .source)]
  rcases reconcile_cases m sink with hmodel | ⟨grown, grown', -, hmodel⟩
  · rw [hmodel, hrepair]
  · rw [hmodel]
    simp only [store, Model.find?_replace, if_neg (h .target).symm, if_neg (h .source).symm, hrepair]

/-- A repair drops no key. -/
theorem sub_repair {m' : Model} (h : m.Sub m') (side : Side) : m.Sub (repair m' side) := by
  unfold repair
  split
  · exact h
  · exact h.clear side.key _

/-- Reconciling drops no key. -/
theorem sub_reconcile (sink : Bool) : m.Sub (reconcile m sink).model := by
  have hrepair : m.Sub (repairBoth m) := sub_repair m (sub_repair m (.refl m) .source) .target
  rcases reconcile_cases m sink with hmodel | ⟨grown, grown', -, hmodel⟩
  · rw [hmodel]
    exact hrepair
  · rw [hmodel]
    exact (hrepair.adjust _ _).adjust _ _

/-- Reconciling appends empty records to a list, and to the target only where it takes free-form
records. -/
theorem find?_reconcile (sink : Bool) {e : Entry} {items : List Value}
    (h : m.find? side.key = some e) (he : e.value = .list items) :
    ∃ n, (reconcile m sink).model.find? side.key =
        some { e with value := .list (items ++ blanks n) } ∧
      (side = .target → sink = false → n = 0) := by
  have hvalue : m.value? side.key = some (.list items) :=
    (Model.value?_of_find? h).trans (congrArg some he)
  have hrepair : (repairBoth m).find? side.key = some e := (find?_repairBoth m hvalue).trans h
  have hitems : Mapping.items (repairBoth m) side = items :=
    items_eq ((Model.value?_of_find? hrepair).trans (congrArg some he))
  rcases reconcile_cases m sink with hmodel | ⟨grown, grown', htarget, hmodel⟩
  · refine ⟨0, ?_, fun _ _ => rfl⟩
    rw [hmodel, hrepair, show items ++ blanks 0 = items from List.append_nil items, ← he]
  · cases side with
    | source =>
      refine ⟨grown, ?_, fun hside => absurd hside (by decide)⟩
      rw [hmodel, hitems]
      simp only [store, Model.find?_replace, hrepair]
      rfl
    | target =>
      refine ⟨grown', ?_, fun _ => htarget⟩
      rw [hmodel, hitems]
      simp only [store, Model.find?_replace, hrepair]
      rfl

end Mapping

namespace Form

/-- A form reconciles its lists or leaves its model. -/
theorem follow_model (key : String) (m : Model) :
    (follow key m).1 = if (key == Keys.sourceColumns || key == Keys.targetColumns) && isEditable m
      then (Mapping.reconcile m (Mapping.isSingleSink m)).model else m := by
  unfold follow
  split
  · dsimp only
    split <;> rfl
  · rfl

/-- A form changes the lists of columns at most, and drops no key. -/
theorem follow_listsOnly : follow.ListsOnly where
  spares key hkey written m := by
    rw [follow_model]
    split
    · exact Mapping.find?_reconcile_of_ne m _ hkey
    · rfl
  keeps written m := by
    rw [follow_model]
    split
    · exact Mapping.sub_reconcile m _
    · exact .refl m

/-- A form does not react to a write of another key than the lists. -/
theorem follow_of_ne {key : String} (h : ∀ side : Side, key ≠ side.key) (m : Model) :
    (follow key m).1 = m := by
  have hlist : (key == Keys.sourceColumns || key == Keys.targetColumns) = false := by
    rw [Bool.or_eq_false_iff, beq_eq_false_iff_ne, beq_eq_false_iff_ne]
    exact ⟨h .source, h .target⟩
  rw [follow_model, hlist, Bool.false_and, if_neg (by decide)]

end Form

/-- A side holds a list with some empty records appended; the target holds the list itself unless it
takes free-form records. -/
def Padded (m : Model) (side : Side) (items : List Value) : Prop :=
  ∃ n, m.value? side.key = some (.list (items ++ Mapping.blanks n)) ∧
    (side = .target → Mapping.isSingleSink m = false → n = 0)

namespace Padded

variable {m m' : Model} {side : Side} {items : List Value}

/-- A list is padded with nothing. -/
theorem of_eq (h : m.value? side.key = some (.list items)) : Padded m side items :=
  ⟨0, by rw [h, show items ++ Mapping.blanks 0 = items from List.append_nil items],
    fun _ _ => rfl⟩

/-- A list stays padded while neither it nor the type of the target changes. -/
theorem congr (h : Padded m side items) (hlist : m'.value? side.key = m.value? side.key)
    (htype : side = .target → m'.value? Keys.targetType = m.value? Keys.targetType) :
    Padded m' side items := by
  obtain ⟨n, hn, hsink⟩ := h
  refine ⟨n, hlist.trans hn, fun htarget hnone => hsink htarget ?_⟩
  rw [← hnone, Mapping.isSingleSink_congr (htype htarget)]

/-- A list stays padded when the form reconciles. -/
theorem follow (h : Padded m side items) (key : String) :
    Padded (Form.follow key m).1 side items := by
  obtain ⟨n, hn, hsink⟩ := h
  obtain ⟨e, he, hvalue⟩ := Option.map_eq_some_iff.1 hn
  have htype : (Form.follow key m).1.find? Keys.targetType = m.find? Keys.targetType :=
    Form.follow_listsOnly.spares _ (by rintro (_ | _) <;> decide) key m
  have hsame : Mapping.isSingleSink (Form.follow key m).1 = Mapping.isSingleSink m :=
    Mapping.isSingleSink_congr (Model.value?_congr htype)
  rw [Padded, hsame, Form.follow_model]
  split
  · obtain ⟨k, hk, hkeep⟩ := Mapping.find?_reconcile m (Mapping.isSingleSink m) he hvalue
    refine ⟨n + k, ?_, fun htarget hnone => ?_⟩
    · rw [Model.value?_of_find? hk]
      refine congrArg (fun items => some (Value.list items)) ?_
      rw [List.append_assoc, Mapping.blanks, Mapping.blanks, List.replicate_append_replicate]
      rfl
    · rw [hsink htarget hnone, hkeep htarget hnone]
  · exact ⟨n, hn, hsink⟩

end Padded

namespace Template

variable (disabled : List String) (r : Resolver) {side : Side} {items : List Value}

/-- The partitions of a side are not among the columns of any side, so a form spares them. -/
theorem spares_partitions (side : Side) :
    (plan disabled Form.follow).react.Spares side.partitionsKey :=
  Form.follow_listsOnly.spares _ side.partitionsKey_ne_key

/-- A list stays padded when a key is announced. -/
theorem padded_propagate (h : Padded r.model side items) (key : String) :
    Padded ((plan disabled Form.follow).propagate r key).model side items :=
  h.follow key

/-- Writing another key than the list, and not the type of the target, keeps the list padded. -/
theorem padded_write (h : Padded r.model side items) {key : String} (value : Value)
    (hkey : key ≠ side.key) (htype : side = .target → key ≠ Keys.targetType) :
    Padded ((plan disabled Form.follow).write r key value).model side items := by
  refine Padded.follow (h.congr ?_ fun htarget => ?_) key
  · rw [Model.value?_setUser, if_neg hkey]
  · rw [Model.value?_setUser, if_neg (htype htarget)]

/-- A list that the user writes is held. -/
theorem padded_write_self :
    Padded ((plan disabled Form.follow).write r side.key (.list items)).model side items :=
  Padded.follow (Padded.of_eq (by rw [Model.value?_setUser, if_pos rfl])) side.key

/-- A cascade that does not reset the type of the target keeps a list padded or resets it. -/
theorem padded_runSteps (steps : List CascadeStep)
    (htype : steps.any (·.resets Keys.targetType) = false)
    (h : steps.any (·.resets side.key) = false → Padded r.model side items) :
    Padded (steps.foldl (plan disabled Form.follow).runStep r).model side
      (if steps.any (·.resets side.key) then [] else items) := by
  induction steps generalizing r items with
  | nil => exact h rfl
  | cons step rest ih =>
    rw [List.any_cons, Bool.or_eq_false_iff] at htype
    rw [List.foldl_cons, List.any_cons]
    by_cases hstep : step.resets side.key = true
    · -- Whatever the list was, it starts anew here.
      have hnil : Padded ((plan disabled Form.follow).runStep r step).model side [] := by
        cases step with
        | reset k =>
          have hk : k = side.key := by simpa [CascadeStep.resets] using hstep
          subst hk
          refine Padded.follow (Padded.of_eq ?_) side.key
          rw [Model.value?_clear, if_pos rfl, (usual_lists disabled _ side).1]
        | empty f => cases hstep
        | supersede k => cases hstep
      have hrest := ih _ htype.2 (fun _ => hnil)
      rw [hstep, Bool.true_or, if_pos rfl]
      simpa using hrest
    · have hkeep : step.resets side.key = false := Bool.eq_false_iff.2 hstep
      rw [hkeep, Bool.false_or]
      refine ih _ htype.2 fun hrest => ?_
      have hpadded := h (by rw [List.any_cons, hkeep, hrest]; rfl)
      cases step with
      | reset k =>
        have hk : k ≠ side.key := by simpa [CascadeStep.resets] using hkeep
        have hk' : k ≠ Keys.targetType := by simpa [CascadeStep.resets] using htype.1
        refine Padded.follow (hpadded.congr ?_ fun _ => ?_) k
        · rw [Model.value?_clear, if_neg hk]
        · rw [Model.value?_clear, if_neg hk']
      | empty f => exact hpadded
      | supersede k => exact hpadded

/-- A change of a rung empties the list of its side and keeps the other one padded. -/
theorem padded_rerunKey (h : Padded r.model side items) (side₀ : Side) (rung : Rung)
    (value : Value) :
    Padded (rerunKey disabled r side₀ rung value Form.follow).model side
      (if side₀ = side then [] else items) := by
  have htype : (rung.steps side₀).any (·.resets Keys.targetType) = false :=
    (rung.resets_key side₀ .target .type).trans (decide_eq_false fun h => Nat.not_lt_zero _ h.2)
  have hlists := (rung.resets_lists side₀ side).1
  have hwrite : (rung.steps side₀).any (·.resets side.key) = false →
      Padded ((plan disabled Form.follow).write r (rung.key side₀) value).model side items := by
    intro hkept
    rw [hlists, decide_eq_false_iff_not] at hkept
    refine padded_write disabled r h value (rung.unlisted side₀ side).1 fun htarget hkey => ?_
    have hsame : rung.key side₀ = Rung.type.key .target := hkey
    exact hkept ((key_inj.1 hsame).1.trans htarget.symm)
  have hsteps := padded_runSteps disabled _ (rung.steps side₀) htype hwrite
  rw [hlists] at hsteps
  have hmodel : (rerunKey disabled r side₀ rung value Form.follow).model =
      ((rung.steps side₀).foldl (plan disabled Form.follow).runStep
        ((plan disabled Form.follow).write r (rung.key side₀) value)).model := by
    rw [← cascade_rung disabled Form.follow side₀ rung]
    rfl
  rw [hmodel]
  simpa using hsteps

/-- A change of a rung empties the partitions of its side and leaves those of the other one. -/
theorem partitions_rerunKey (side₀ : Side) (rung : Rung) (value : Value) :
    (rerunKey disabled r side₀ rung value Form.follow).model.value? side.partitionsKey =
      if side₀ = side then some (.list []) else r.model.value? side.partitionsKey := by
  rw [Plan.value?_rerun _ (spares_partitions disabled side), cascade_rung,
    (rung.resets_lists side₀ side).2, (usual_lists disabled Form.follow side).2,
    if_neg (rung.unlisted side₀ side).2]
  simp only [decide_eq_true_eq]

/-- Bringing the lists of a table replaces the list of its side and keeps the other one padded. -/
theorem padded_bring (h : Padded r.model side items) (side₀ : Side) (t : TableColumns) :
    Padded ((plan disabled Form.follow).bring r side₀ t).model side
      (if side₀ = side then t.records else items) := by
  refine padded_propagate disabled _ (padded_propagate disabled _ ?_ side₀.key) side₀.partitionsKey
  have hpartitions : side₀.partitionsKey ≠ side.key := side₀.partitionsKey_ne_key side
  by_cases hside : side₀ = side
  · subst hside
    rw [if_pos rfl]
    refine Padded.of_eq ?_
    rw [Model.value?_setLookup, if_neg hpartitions, Model.value?_setLookup, if_pos rfl]
  · rw [if_neg hside]
    refine h.congr ?_ fun _ => ?_
    · rw [Model.value?_setLookup, if_neg hpartitions, Model.value?_setLookup,
        if_neg (mt Side.key_inj.1 hside)]
    · have htype : Keys.targetType ≠ side₀.key ∧ Keys.targetType ≠ side₀.partitionsKey :=
        Rung.type.unlisted .target side₀
      rw [Model.value?_setLookup, if_neg htype.2.symm, Model.value?_setLookup,
        if_neg htype.1.symm]

/-- Bringing the lists of a table replaces the partitions of its side and leaves the others. -/
theorem partitions_bring (side₀ : Side) (t : TableColumns) :
    ((plan disabled Form.follow).bring r side₀ t).model.value? side.partitionsKey =
      if side₀ = side then some (.list (t.placeholders.map .text))
      else r.model.value? side.partitionsKey := by
  have hspares := spares_partitions disabled side
  by_cases hside : side₀ = side
  · subst hside
    rw [if_pos rfl, Plan.value?_bring_partitions _ hspares]
  · have hpartitions : side.partitionsKey ≠ side₀.partitionsKey := fun hkey =>
      hside (Side.partitionsKey_inj.1 hkey).symm
    rw [if_neg hside, Plan.value?_bring _ hspares r side₀ t (side.partitionsKey_ne_key side₀)
      hpartitions]

end Template

end SyncForm
