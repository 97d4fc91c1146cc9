import SyncForm.Proofs.FormRun

/-!
# What a validation looks at

A validation reads the values of a model and the weights of the fields, and nothing else of a
resolver: not where a value comes from, not the marks of earlier failures, and no list of choices.
So forms that resemble each other in values and weights are given one verdict (`Form.validate_eq`).
-/

namespace SyncForm

/-- The weight of a field, if it has a state. -/
def Resolver.weight? (r : Resolver) (field : String) : Option Int :=
  (Assoc.valueOf? r.facets field).map (·.weight)

/-- A resolver holds the values of another one and gives every field the weight that it has there. -/
structure Resolver.Resembles (r' r : Resolver) : Prop where
  ready : r'.ready = r.ready
  values : ∀ key, r'.model.value? key = r.model.value? key
  weights : ∀ field, r'.weight? field = r.weight? field

namespace Resolver.Resembles

variable {r r' : Resolver}

/-- The values read from the model are those of the other one. -/
theorem get (h : r'.Resembles r) : r'.model.get = r.model.get := by
  funext key
  exact Model.get_congr (h.values key)

/-- Another model with the same values leaves the resemblance. -/
theorem remodel (h : r'.Resembles r) {m m' : Model} (hm : ∀ key, m.value? key = r.model.value? key)
    (hm' : ∀ key, m'.value? key = r'.model.value? key) :
    Resembles { r' with model := m' } { r with model := m } where
  ready := h.ready
  values key := (hm' key).trans ((h.values key).trans (hm key).symm)
  weights := h.weights

/-- The states of a field differ in their choices at most. -/
theorem facet (h : r'.Resembles r) (key : String) :
    (∃ fault, r'.facet key = .error fault ∧ r.facet key = .error fault) ∨
      ∃ facet' facet, r'.facet key = .ok facet' ∧ r.facet key = .ok facet ∧
        facet'.weight = facet.weight := by
  have hweight := h.weights key
  unfold Resolver.weight? at hweight
  unfold Resolver.facet
  rw [h.ready]
  cases r.ready with
  | false => exact .inl ⟨_, rfl, rfl⟩
  | true =>
    cases hf' : Assoc.valueOf? r'.facets key <;> cases hf : Assoc.valueOf? r.facets key <;>
      rw [hf', hf] at hweight
    · exact .inl ⟨_, rfl, rfl⟩
    · cases hweight
    · cases hweight
    · exact .inr ⟨_, _, rfl, rfl, Option.some.inj hweight⟩

end Resolver.Resembles

/-- The keys of the model that a rule looks at, beside the value that it is given. -/
def Rule.reads : Rule → List String
  | fieldMapping => [Keys.sourceColumns, Keys.targetColumns, Keys.targetType]
  | partitionValues => []
  | number => []
  | localParams => []

/-- A rule answers alike for models that agree in the keys that it looks at. -/
theorem Rule.check_congr (rule : Rule) (value : Value) {m m' : Model}
    (h : ∀ key ∈ rule.reads, m'.get key = m.get key) : rule.check value m' = rule.check value m := by
  cases rule with
  | fieldMapping =>
    have hsource : m'.get Keys.sourceColumns = m.get Keys.sourceColumns := h _ (by decide)
    have htarget : m'.get Keys.targetColumns = m.get Keys.targetColumns := h _ (by decide)
    have htype : m'.get Keys.targetType = m.get Keys.targetType := h _ (by decide)
    simp only [check, checkMapping, Mapping.isSingleSink, hsource, htarget, htype]
  | partitionValues => rfl
  | number => rfl
  | localParams => rfl

namespace Form

/-- The first complaint is the same for models that agree in the keys that the rules look at. -/
theorem firstComplaint_congr (value : Value) {m m' : Model} {rules : List Rule}
    (h : ∀ rule ∈ rules, ∀ key ∈ rule.reads, m'.get key = m.get key) :
    firstComplaint value m' rules = firstComplaint value m rules := by
  induction rules with
  | nil => rfl
  | cons rule rest ih =>
    have hrest := ih fun other hother => h other (.tail _ hother)
    simp only [firstComplaint, rule.check_congr value (h rule (.head _)), hrest]

/-- The complaint about a field is the same for models that agree in the keys that its rules look
at. -/
theorem complaint_congr (d : Descriptor) (value : Value) {m m' : Model}
    (h : ∀ rule ∈ d.rules, ∀ key ∈ rule.reads, m'.get key = m.get key) :
    complaint d value m' = complaint d value m := by
  simp only [complaint, firstComplaint_congr value h]

variable {r r' : Resolver} (plan : Plan)

/-- The value that a field shows is the same where the values and the weights are. -/
theorem view_congr (h : r'.Resembles r) (key : String) :
    (plan.view r' key).map (·.value) = (plan.view r key).map (·.value) := by
  unfold Plan.view
  rw [h.ready]
  split
  · rfl
  · split
    · rfl
    · rcases h.facet key with ⟨fault, hr', hr⟩ | ⟨facet', facet, hr', hr, -⟩
      · rw [hr', hr]
        rfl
      · rw [hr', hr, h.get]
        rfl

/-- What is found wrong with some fields is the same where the values and the weights are. -/
theorem checkFields_congr (h : r'.Resembles r) (fields : List Descriptor) :
    (checkFields plan r' fields).2 = (checkFields plan r fields).2 := by
  induction fields generalizing r r' with
  | nil => rfl
  | cons d rest ih =>
    unfold checkFields
    split
    · exact ih h
    · have hview := view_congr plan h d.key
      rcases hv' : plan.view r' d.key with fault' | view' <;>
        rcases hv : plan.view r d.key with fault | view <;> rw [hv', hv] at hview
      · exact congrArg Except.error (Except.error.inj hview)
      · cases hview
      · cases hview
      · have hvalue : view'.value = view.value := Except.ok.inj hview
        dsimp only
        rw [hvalue, complaint_congr d view.value fun _ _ key _ => congrFun h.get key]
        cases complaint d view.value r.model with
        | error fault => rfl
        | ok message =>
          -- Marking the model keys changes no value, so the rest is checked alike.
          have hrest := ih (h.remodel (r.model.value?_marked d.modelKeys message)
            (r'.model.value?_marked d.modelKeys message))
          cases message with
          | none => exact hrest
          | some text => exact congrArg (Except.map ((d.key, text) :: ·)) hrest

end Form

/-- The fields among some that are shown, in order. -/
def Resolver.shownAmong (r : Resolver) (fields : List Descriptor) :
    Except Fault (List Descriptor) := do
  let shown ← fields.mapM fun d => (r.facet d.key).map fun facet => (d, facet)
  return (shown.filter (·.2.visible)).map (·.1)

/-- A field is shown before the others if its weight says so. -/
theorem Resolver.shownAmong_cons (r : Resolver) (d : Descriptor) (rest : List Descriptor) :
    r.shownAmong (d :: rest) = (r.facet d.key).bind fun facet =>
      (r.shownAmong rest).map fun shown => if facet.visible then d :: shown else shown := by
  rw [shownAmong, shownAmong, List.mapM_cons]
  generalize rest.mapM (fun d => (r.facet d.key).map fun facet => (d, facet)) = others
  cases r.facet d.key with
  | error fault => rfl
  | ok facet =>
    cases others with
    | error fault => rfl
    | ok shown =>
      have hfilter : (((d, facet) :: shown).filter (·.2.visible)).map (·.1) =
          if facet.visible then d :: (shown.filter (·.2.visible)).map (·.1)
          else (shown.filter (·.2.visible)).map (·.1) := by
        rw [List.filter_cons]
        split <;> rfl
      exact congrArg Except.ok hfilter

/-- The fields shown depend on the weights alone. -/
theorem Resolver.Resembles.shownAmong {r r' : Resolver} (h : r'.Resembles r)
    (fields : List Descriptor) : r'.shownAmong fields = r.shownAmong fields := by
  induction fields with
  | nil => rfl
  | cons d rest ih =>
    rw [shownAmong_cons, shownAmong_cons, ih]
    rcases h.facet d.key with ⟨fault, hr', hr⟩ | ⟨facet', facet, hr', hr, hweight⟩
    · rw [hr', hr]
    · have hvisible : facet'.visible = facet.visible := by
        unfold Facet.visible
        rw [hweight]
      rw [hr', hr]
      simp only [Except.bind, hvisible]

/-- Forms of one table that resemble each other in values and weights are given one verdict. -/
theorem Form.validate_eq {f f' : Form} (hplan : f'.plan = f.plan)
    (h : f'.resolver.Resembles f.resolver) : f'.validate.2 = f.validate.2 := by
  have hshown : f'.visibleFields = f.visibleFields := by
    have hfields := h.shownAmong f.plan.descriptors
    rw [← hplan] at hfields
    exact hfields.trans (congrArg (fun plan => f.resolver.shownAmong plan.descriptors) hplan)
  unfold validate
  rw [hshown]
  cases f.visibleFields with
  | error fault => rfl
  | ok shown =>
    dsimp only
    rw [hplan]
    exact checkFields_congr f.plan h shown

end SyncForm
