import SyncForm.Proofs.ColumnLists
import SyncForm.Proofs.FormRun

/-!
# Forms of job parameters

A form of job parameters with the task table starts on the model that the parameters describe, with
both column lists read and seeded (`Form.ofValues_taskForm`). The form can be built just where what
is given for the lists stands for records (`Form.exists_ofValues`); the model it starts on then holds
these records and the other values as they were given (`Model.Seeded`, `Form.ofValues_spec`). It is
sound (`Form.sound_ofValues`).
-/

namespace SyncForm

/-- Parameters that are an object describe the model of its members. -/
theorem Model.ofValue_object (params : Assoc Value) :
    ofValue ((Value.object params).orElse (.object [])) = .ok (ofMembers params) := by
  cases params <;> rfl

/-- A model that job parameters describe once its column lists are read: under the column keys it
holds the records that the lists stand for, none where there is no list, and under all other keys
what is given. -/
structure Model.Seeded (given m : Model) (cs : Side → List Column) : Prop where
  columns : ∀ side : Side, m.value? side.key = some (.list ((cs side).map .column))
  described : ∀ side : Side, Describes ((given.value? side.key).getD (.list [])) (cs side)
  others : ∀ key, (∀ side : Side, key ≠ side.key) → m.value? key = given.value? key

namespace Form

/-! ## Reading the lists -/

variable {m m' : Model} {key : String}

/-- Reading a column list leaves the other keys, and what it reads are the records that the list
stands for; a list that is not given stands for none. -/
theorem readList_spec (h : readList m key = .ok m') :
    (∀ other, key ≠ other → m'.value? other = m.value? other) ∧ ∃ cs : List Column,
      (m'.value? key).getD (.list []) = .list (cs.map .column) ∧
        Describes ((m.value? key).getD (.list [])) cs := by
  unfold readList at h
  cases hvalue : m.value? key with
  | none =>
    rw [hvalue] at h
    cases h
    refine ⟨fun _ _ => rfl, [], ?_, .list .nil⟩
    rw [hvalue]
    rfl
  | some value =>
    rw [hvalue] at h
    obtain ⟨records, hread, rfl⟩ := Except.of_map_eq_ok h
    obtain ⟨cs, rfl, hdescribes⟩ := readColumns_eq_ok.1 hread
    refine ⟨fun other hother => ?_, cs, ?_, hdescribes⟩
    · rw [Model.value?_replace, if_neg hother]
    · rw [Model.value?_replace, if_pos rfl, hvalue]
      rfl

/-- A column list is read if what is held stands for records. -/
theorem exists_readList (h : ∀ v, m.value? key = some v → ∃ cs, Describes v cs) :
    ∃ m', readList m key = .ok m' := by
  unfold readList
  cases hvalue : m.value? key with
  | none => exact ⟨m, rfl⟩
  | some v =>
    obtain ⟨cs, hdescribes⟩ := h v hvalue
    dsimp only
    rw [readColumns_eq_ok.2 ⟨cs, rfl, hdescribes⟩]
    exact ⟨_, rfl⟩

/-! ## The form of job parameters -/

/-- The form of the task table on a model, made ready. -/
def onModel (disabled : List String) (m : Model) : Form :=
  { plan := Template.plan disabled follow
    resolver := (Template.plan disabled follow).begun m }

/-- The form of job parameters with the task table is made ready on the model that they describe,
both lists read and seeded. -/
theorem ofValues_taskForm (values : Value) (disabled : List String) :
    ofValues values (Template.taskForm disabled) = (do
      let m ← Model.ofValue (values.orElse (.object []))
      let m ← readList m Keys.sourceColumns
      let m ← readList m Keys.targetColumns
      return onModel disabled
        ((m.ensure Keys.sourceColumns (.list [])).ensure Keys.targetColumns (.list []))) := by
  have hplan : Plan.ofDescriptors (Template.taskForm disabled) follow =
      .ok (Template.plan disabled follow) := dif_pos (Template.nodup_keys disabled)
  unfold ofValues
  simp only [hplan, setUp, Template.setUp_plan, bind, Except.bind, pure, Except.pure, onModel]

variable {disabled : List String} {values : Value} {f : Form}

/-- For a form of job parameters with the task table both lists were read, the source list first. -/
theorem exists_readLists (h : ofValues values (Template.taskForm disabled) = .ok f) :
    ∃ m₀ m₁ m₂, Model.ofValue (values.orElse (.object [])) = .ok m₀ ∧
      readList m₀ Keys.sourceColumns = .ok m₁ ∧ readList m₁ Keys.targetColumns = .ok m₂ ∧
      f = onModel disabled
        ((m₂.ensure Keys.sourceColumns (.list [])).ensure Keys.targetColumns (.list [])) := by
  rw [ofValues_taskForm] at h
  cases h₀ : Model.ofValue (values.orElse (.object [])) with
  | error fault => rw [h₀] at h; cases h
  | ok m₀ =>
  cases h₁ : readList m₀ Keys.sourceColumns with
  | error fault => simp only [h₀, h₁, bind, Except.bind] at h; cases h
  | ok m₁ =>
  cases h₂ : readList m₁ Keys.targetColumns with
  | error fault => simp only [h₀, h₁, h₂, bind, Except.bind] at h; cases h
  | ok m₂ =>
  simp only [h₀, h₁, h₂, bind, Except.bind, pure, Except.pure, Except.ok.injEq] at h
  exact ⟨m₀, m₁, m₂, rfl, h₁, h₂, h.symm⟩

/-- A form of job parameters with the task table starts on the model that they describe, its column
lists read. -/
theorem ofValues_spec (h : ofValues values (Template.taskForm disabled) = .ok f) :
    ∃ given m cs, Model.ofValue (values.orElse (.object [])) = .ok given ∧
      f = onModel disabled m ∧ Model.Seeded given m cs := by
  obtain ⟨m₀, m₁, m₂, h₀, h₁, h₂, hf⟩ := exists_readLists h
  obtain ⟨hkept₁, source, hsource, hdescribed⟩ := readList_spec h₁
  obtain ⟨hkept₂, target, htarget, hdescribed'⟩ := readList_spec h₂
  have hapart : Keys.targetColumns ≠ Keys.sourceColumns := by decide
  refine ⟨m₀, _, fun side => side.rec source target, h₀, hf, ?_, ?_, fun key hkey => ?_⟩
  · rintro (_ | _)
    · rw [Side.key, Model.value?_ensure, if_neg hapart, Model.value?_ensure, if_pos rfl,
        hkept₂ _ hapart, hsource]
    · rw [Side.key, Model.value?_ensure, if_pos rfl, Model.value?_ensure, if_neg hapart.symm,
        htarget]
  · rintro (_ | _)
    · exact hdescribed
    · rw [hkept₁ _ hapart.symm] at hdescribed'
      exact hdescribed'
  · have hsource : Keys.sourceColumns ≠ key := (hkey .source).symm
    have htarget : Keys.targetColumns ≠ key := (hkey .target).symm
    rw [Model.value?_ensure, if_neg htarget, Model.value?_ensure, if_neg hsource,
      hkept₂ key htarget, hkept₁ key hsource]

/-- A form of job parameters with the task table can be built if what they give for the column lists
stands for records. -/
theorem exists_ofValues (disabled : List String) {given : Model}
    (hgiven : Model.ofValue (values.orElse (.object [])) = .ok given)
    (h : ∀ (side : Side) v, given.value? side.key = some v → ∃ cs, Describes v cs) :
    ∃ f, ofValues values (Template.taskForm disabled) = .ok f := by
  obtain ⟨m₁, h₁⟩ := exists_readList (h .source)
  have hkept : m₁.value? Keys.targetColumns = given.value? Keys.targetColumns :=
    (readList_spec h₁).1 _ (by decide)
  obtain ⟨m₂, h₂⟩ := exists_readList (m := m₁) fun v hv => h .target v (hkept.symm.trans hv)
  have h₁ : readList given Keys.sourceColumns = .ok m₁ := h₁
  have h₂ : readList m₁ Keys.targetColumns = .ok m₂ := h₂
  rw [ofValues_taskForm, hgiven]
  simp only [h₁, h₂, bind, Except.bind]
  exact ⟨_, rfl⟩

/-- A form of job parameters with the task table starts on a model that holds lists under both
column keys. -/
theorem exists_onModel (h : ofValues values (Template.taskForm disabled) = .ok f) :
    ∃ m, f = onModel disabled m ∧
      ∀ side : Side, ∃ items, m.value? side.key = some (.list items) := by
  obtain ⟨_, m, cs, -, hm, hseeded⟩ := ofValues_spec h
  exact ⟨m, hm, fun side => ⟨_, hseeded.columns side⟩⟩

/-- The form of the task table on a model is sound. -/
theorem sound_onModel (disabled : List String) (m : Model) : (onModel disabled m).Sound disabled := by
  have howned : ∀ side : Side,
      (Template.plan disabled follow).ownedKeys.contains side.key = true ∧
        (Template.plan disabled follow).ownedKeys.contains side.partitionsKey = true := by
    rw [Template.ownedKeys_plan]
    rintro (_ | _) <;> decide +kernel
  exact
    { plan := rfl
      tracked := Template.tracked_begun disabled follow m
      columns := fun side => (Template.plan disabled follow).holds_begun m (howned side).1
      partitions := fun side => (Template.plan disabled follow).holds_begun m (howned side).2 }

/-- A form of job parameters with the task table is sound. -/
theorem sound_ofValues (h : ofValues values (Template.taskForm disabled) = .ok f) :
    f.Sound disabled := by
  obtain ⟨m, rfl, -⟩ := exists_onModel h
  exact sound_onModel disabled m

end Form

end SyncForm
