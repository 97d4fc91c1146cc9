import Mathlib.Data.List.Induction
import SyncForm.Proofs.ColumnRecords
import SyncForm.Proofs.Findings

/-!
# The messages beside the keys

A message that stands beside a key comes from a validation. No other act brings one: a value that is
written keeps the message that stands beside its key, and a key that is reset loses it
(`Model.Fades`). So beside the keys of a field stands what the last validation that looked at the
field found, or nothing (`Form.FindingStands`). For the fields that a validation looks at this is its
own result, which names them with the messages that then stand beside their keys; the fields hidden
from it keep what they have, and the result does not name them (`Template.indicators_run`).
`Template.indicator_outlives` is a form that is valid, with such a message.
-/

namespace SyncForm

/-- A model has no messages but those of another one. -/
def Model.Fades (m m' : Model) : Prop :=
  ∀ key, m'.indicator? key = m.indicator? key ∨ m'.indicator? key = none

namespace Model.Fades

variable {m m' m'' : Model}

/-- A model has its own messages. -/
theorem refl (m : Model) : m.Fades m :=
  fun _ => .inl rfl

/-- No message is added over two stretches. -/
theorem trans (h : m.Fades m') (h' : m'.Fades m'') : m.Fades m'' := by
  intro key
  rcases h' key with hsame | hnone
  · rw [hsame]
    exact h key
  · exact .inr hnone

/-- Writing a key without a message of its own adds none. -/
theorem write (h : m.Fades m') (key : String) {f : Entry → Entry}
    (hf : ∀ e, (f e).validationError = e.validationError) : m.Fades (m'.write key f) := by
  refine h.trans fun other => .inl ?_
  rw [indicator?, find?_write]
  split
  · next hkey =>
    subst hkey
    rw [Option.bind_some, hf, indicator?]
    cases m'.find? key <;> rfl
  · rfl

/-- A value of the user adds no message. -/
theorem setUser (h : m.Fades m') (key : String) (value : Value) : m.Fades (m'.setUser key value) :=
  h.write key fun _ => rfl

/-- A value of a lookup adds no message. -/
theorem setLookup (h : m.Fades m') (key : String) (value : Value) :
    m.Fades (m'.setLookup key value) :=
  h.write key fun _ => rfl

/-- Resetting a key adds no message. -/
theorem clear (h : m.Fades m') (key : String) (value : Value) : m.Fades (m'.clear key value) := by
  refine h.trans fun other => ?_
  rw [indicator?, find?_clear]
  split
  · exact .inr rfl
  · exact .inl rfl

/-- Changing an entry but for its message adds none. -/
theorem adjust (h : m.Fades m') (key : String) {f : Entry → Entry}
    (hf : ∀ e, (f e).validationError = e.validationError) : m.Fades (m'.adjust key f) := by
  refine h.trans fun other => .inl ?_
  rw [indicator?, find?_adjust, indicator?]
  split
  · cases m'.find? other with
    | none => rfl
    | some e => exact hf e
  · rfl

/-- Seeding a key adds no message. -/
theorem ensure (h : m.Fades m') (key : String) (value : Value) : m.Fades (m'.ensure key value) := by
  refine h.trans fun other => .inl ?_
  rw [indicator?, find?_ensure, indicator?]
  split
  · cases m'.find? other <;> rfl
  · rfl

/-- The editor adds no message. -/
theorem kept (m : Model) : Mapping.Kept m.Fades where
  repair side h := by
    unfold Mapping.repair
    split
    · exact h
    · exact h.clear side.key _
  store side _ h := h.adjust side.key fun _ => rfl
  touch side h := h.adjust side.key fun _ => rfl

end Model.Fades

/-- A form that follows a written list adds no message. -/
theorem Form.fades_follow (key : String) (m : Model) : m.Fades (follow key m).1 := by
  rw [follow_model]
  split
  · exact (Model.Fades.kept m).reconcile (.refl m) _
  · exact .refl m

/-! ## Steps of the resolver -/

namespace Template

open Form

variable (disabled : List String) (r : Resolver)

/-- Announcing a key adds no message. -/
theorem fades_propagate (key : String) :
    r.model.Fades ((plan disabled follow).propagate r key).model :=
  fades_follow key r.model

/-- Writing a value of the user adds no message. -/
theorem fades_write (key : String) (value : Value) :
    r.model.Fades ((plan disabled follow).write r key value).model :=
  ((Model.Fades.refl r.model).setUser key value).trans (fades_propagate disabled _ key)

/-- A cascade adds no message. -/
theorem fades_runSteps (steps : List CascadeStep) :
    r.model.Fades (steps.foldl (plan disabled follow).runStep r).model := by
  induction steps generalizing r with
  | nil => exact .refl _
  | cons step rest ih =>
    refine Model.Fades.trans ?_ (ih ((plan disabled follow).runStep r step))
    cases step with
    | empty field => exact .refl _
    | supersede name => exact .refl _
    | reset key => exact ((Model.Fades.refl _).clear key _).trans (fades_propagate disabled _ key)

/-- Bringing the lists of a table adds no message. -/
theorem fades_bring (side : Side) (t : TableColumns) :
    r.model.Fades ((plan disabled follow).bring r side t).model := by
  have hwritten := ((Model.Fades.refl r.model).setLookup side.key (.list t.records)).setLookup
    side.partitionsKey (.list (t.placeholders.map .text))
  exact (hwritten.trans (fades_propagate disabled _ side.key)).trans
    (fades_propagate disabled _ side.partitionsKey)

/-- Completing a lookup adds no message, however it ends. -/
theorem fades_complete {l : Lookup} (hl : l.Known)
    (hoffers : ∀ side rung, Assoc.holds r.facets (Rung.key rung side) = true) (ending : Ending) :
    r.model.Fades ((plan disabled follow).complete r l (ending.answer l)).1.model := by
  have hends := complete_cases disabled follow hl hoffers ending
  generalize (plan disabled follow).complete r l (ending.answer l) = done at hends ⊢
  cases hends with
  | stale | skipped | offered => exact .refl _
  | failed _ cause _ =>
    obtain ⟨owner, mark, hmodel⟩ := Plan.fail_model (r.without l) l cause
    rw [hmodel]
    exact (Model.Fades.refl _).adjust owner fun _ => rfl
  | brought _ side t _ _ => exact fades_bring disabled (r.without l) side t

end Template

/-- A step of a sound form adds no message. -/
theorem Form.Sound.fades_take {disabled : List String} {f : Form} (h : f.Sound disabled)
    (step : Step) : f.resolver.model.Fades (f.take step).resolver.model := by
  have htaken := f.take_cases step
  rw [h.plan] at htaken
  generalize (f.take step).resolver = r' at htaken ⊢
  cases htaken with
  | refused | absent => exact .refl _
  | written key value running _ _ =>
    exact Template.fades_write disabled (f.resolver.noted (.change key value running)) key value
  | rerun key value trigger _ _ =>
    have hwrite : f.resolver.model.Fades _ :=
      Template.fades_write disabled (f.resolver.noted (.change key value true)) key value
    exact hwrite.trans (Template.fades_runSteps disabled _ _)
  | primed running =>
    rw [((Template.plan disabled follow).prime_model _ running).1]
    exact .refl _
  | ended number ending l hl =>
    exact Template.fades_complete disabled f.resolver
      (h.tracked.known l (Resolver.lookup?_eq_some hl).1)
      (Template.holds_facets f.resolver h.tracked) ending

/-! ## Validations and exports -/

/-- An export leaves all messages. -/
theorem Model.indicator?_exportKeys (m : Model) (keys : List String) (key : String) :
    (m.exportKeys keys).2.indicator? key = m.indicator? key := by
  have hfold : ∀ (paths : List String) (x : Export),
      (paths.foldl Export.step x).model.indicator? key = x.model.indicator? key := by
    intro paths
    induction paths with
    | nil => exact fun _ => rfl
    | cons path rest ih =>
      intro x
      refine (ih (x.step path)).trans ?_
      rcases x.step_model path with hstep | ⟨above, name, value, -, hstep⟩
      · rw [hstep]
      · rw [hstep, replace, indicator?, find?_adjust, indicator?]
        split
        · cases x.model.find? key <;> rfl
        · rfl
  exact hfold keys { model := m, members := [], own := [] }

/-- An export of a form leaves all messages. -/
theorem Form.indicator?_exportParams (f : Form) (key : String) :
    f.exportParams.1.resolver.model.indicator? key = f.resolver.model.indicator? key := by
  refine Eq.trans ?_ (f.resolver.model.indicator?_exportKeys
    ((f.plan.descriptors.filter (·.kind != .divider)).flatMap (·.modelKeys)) key)
  unfold exportParams
  dsimp only
  split <;> rfl

/-- A strict export leaves the messages that its validation brings. -/
theorem Form.indicator?_toParams_strict (f : Form) (key : String) :
    (f.toParams true).1.resolver.model.indicator? key =
      f.validate.1.resolver.model.indicator? key := by
  rw [toParams_strict]
  split
  · rfl
  · exact f.validate.1.indicator?_exportParams key

/-- An act that validates the form: a validation, or a strict export. -/
def Act.validates : Act → Bool
  | step _ => false
  | edit _ => false
  | validate => true
  | toParams strict => strict

namespace Form

/-- An act that validates brings the messages of a validation. -/
theorem indicator?_act (f : Form) {act : Act} (hact : act.validates = true) (key : String) :
    (f.act act).resolver.model.indicator? key = f.validate.1.resolver.model.indicator? key := by
  cases act with
  | step step => cases hact
  | edit call => cases hact
  | validate => rfl
  | toParams strict =>
    obtain rfl : strict = true := hact
    exact f.indicator?_toParams_strict key

/-- An act that does not validate adds no message. -/
theorem Sound.fades_act {disabled : List String} {f : Form} (h : f.Sound disabled) {act : Act}
    (hact : act.validates = false) : f.resolver.model.Fades (f.act act).resolver.model := by
  cases act with
  | step step => exact h.fades_take step
  | edit call =>
    rw [Form.act, call.run_eq]
    exact call.kept_perform (Model.Fades.kept f.resolver.model) (.refl _)
  | validate => cases hact
  | toParams strict =>
    obtain rfl : strict = false := hact
    exact fun key => .inl (f.indicator?_exportParams key)

/-- A form of job parameters starts without a message. -/
theorem indicator?_ofValues {disabled : List String} {values : Value} {f : Form}
    (h : ofValues values (Template.taskForm disabled) = .ok f) (key : String) :
    f.resolver.model.indicator? key = none := by
  have hread {m m' : Model} (side : Side) (hlist : readList m side.key = .ok m') :
      m.Fades m' := by
    unfold readList at hlist
    split at hlist
    · cases hlist
      exact .refl _
    · obtain ⟨records, -, rfl⟩ := Except.of_map_eq_ok hlist
      exact (Model.Fades.refl m).adjust _ fun _ => rfl
  obtain ⟨m₀, m₁, m₂, h₀, h₁, h₂, rfl⟩ := exists_readLists h
  have hgiven : m₀.indicator? key = none := by
    obtain ⟨members, -, rfl⟩ := Except.of_map_eq_ok h₀
    rw [Model.indicator?, Model.find?_ofMembers]
    cases Assoc.valueOf? (Assoc.putAll [] (leavesOfMembers "" members)) key <;> rfl
  have hseeded := (((hread .source h₁).trans (hread .target h₂)).ensure
    Keys.sourceColumns (.list [])).ensure Keys.targetColumns (.list [])
  have hstart : ∀ m : Model, m.Fades (onModel disabled m).resolver.model := by
    intro m other
    refine .inl ?_
    rw [Model.indicator?, onModel, Plan.find?_begun, Model.indicator?]
    cases m.find? other with
    | none => split <;> rfl
    | some e => rfl
  rcases hseeded.trans (hstart _) key with hsame | hnone
  · exact hsame.trans hgiven
  · exact hnone

/-! ## Runs -/

/-- The last validation among some acts that looked at a field found a message. -/
inductive FindingStands (f : Form) (d : Descriptor) (message : String) : List Act → Prop
  | found {acts : List Act} {act : Act} : act.validates = true →
    (d, some message) ∈ (f.runActs acts).findings → FindingStands f d message (acts ++ [act])
  | later {acts : List Act} {act : Act} : FindingStands f d message acts →
    (act.validates = true → ∀ found, (d, found) ∉ (f.runActs acts).findings) →
    FindingStands f d message (acts ++ [act])

end Form

namespace Template

variable (disabled : List String) {values : Value} {f : Form} {d : Descriptor} {key : String}

/-- A message beside a key of a field is what the last validation found that looked at the field. -/
theorem findingStands_of_indicator (hf : Form.ofValues values (taskForm disabled) = .ok f)
    (hd : d ∈ taskForm disabled) (hkey : key ∈ d.modelKeys) {acts : List Act} {message : String}
    (h : (f.runActs acts).resolver.model.indicator? key = some message) :
    f.FindingStands d message acts := by
  -- The last act is split off: it brought the message, or the message was there before it.
  induction acts using List.reverseRecOn with
  | nil =>
    have hnone := Form.indicator?_ofValues hf key
    cases hnone.symm.trans h
  | append_singleton acts act ih =>
    have hlaid := Form.laid_runActs hf acts
    have hlast : f.runActs (acts ++ [act]) = (f.runActs acts).act act := List.foldl_append
    rw [hlast] at h
    cases hact : act.validates with
    | false =>
      rcases hlaid.sound.fades_act hact key with hsame | hnone
      · refine .later (ih (hsame.symm.trans h)) fun hvalidates => ?_
        cases hact.symm.trans hvalidates
      · cases hnone.symm.trans h
    | true =>
      rw [Form.indicator?_act _ hact] at h
      obtain ⟨hfound, hunfound⟩ := hlaid.indicator?_validate hd hkey
        (Form.holds_runActs hf acts (mem_paramKeys disabled hd hkey))
      by_cases hlooked : ∃ found, (d, found) ∈ (f.runActs acts).findings
      · obtain ⟨found, hmem⟩ := hlooked
        obtain rfl : found = some message := (hfound found hmem).symm.trans h
        exact .found hact hmem
      · have hnone := not_exists.1 hlooked
        exact .later (ih ((hunfound hnone).symm.trans h)) fun _ => hnone

/-- In every state that acts on a form of job parameters reach, a validation without a fault leaves
beside the keys of every field shown the message that its result gives for the field, and none where
it gives none. Fields that are not shown are not in the result, and what stands beside their keys
stays: a message there is the one found by the last validation that looked at the field. -/
theorem indicators_run (hf : Form.ofValues values (taskForm disabled) = .ok f) {acts : List Act}
    {g : Form} {issues : List (String × String)}
    (hg : (f.runActs acts).validate = (g, .ok issues)) :
    ∃ shown, (f.runActs acts).visibleFields = .ok shown ∧
      ∀ d ∈ taskForm disabled, ∀ key ∈ d.modelKeys,
        (d ∈ shown → g.resolver.model.indicator? key = Assoc.valueOf? issues d.key) ∧
        (d ∉ shown → Assoc.valueOf? issues d.key = none ∧
          g.resolver.model.indicator? key = (f.runActs acts).resolver.model.indicator? key ∧
          ∀ message, g.resolver.model.indicator? key = some message →
            f.FindingStands d message acts) := by
  have hlaid := Form.laid_runActs hf acts
  have hresult : (f.runActs acts).validate.2 = .ok issues := congrArg Prod.snd hg
  obtain rfl : (f.runActs acts).validate.1 = g := congrArg Prod.fst hg
  refine ⟨_, hlaid.visibleFields, fun d hd key hkey => ?_⟩
  obtain ⟨hfound, hunfound⟩ := hlaid.indicator?_validate hd hkey
    (Form.holds_runActs hf acts (mem_paramKeys disabled hd hkey))
  refine ⟨fun hshown => ?_, fun hhidden => ?_⟩
  · obtain ⟨message, hmem⟩ := hlaid.exists_finding hresult hshown (List.ne_nil_of_mem hkey)
    rw [hfound message hmem]
    cases message with
    | some text => exact ((hlaid.valueOf?_issues hresult hd text).2 hmem).symm
    | none =>
      cases hvalue : Assoc.valueOf? issues d.key with
      | none => rfl
      | some text =>
        exact hlaid.finding_unique hmem ((hlaid.valueOf?_issues hresult hd text).1 hvalue)
  · have hnone : ∀ message, (d, message) ∉ (f.runActs acts).findings :=
      fun message hmem => hhidden (hlaid.finding_spec hmem).2.1
    refine ⟨?_, hunfound hnone, fun message h => ?_⟩
    · cases hvalue : Assoc.valueOf? issues d.key with
      | none => rfl
      | some text => exact absurd ((hlaid.valueOf?_issues hresult hd text).1 hvalue) (hnone _)
    · exact findingStands_of_indicator disabled hf hd hkey ((hunfound hnone).symm.trans h)

/-- The form of a job without parameters. -/
def blankForm : Form :=
  .onModel [] (((Model.ofMembers []).ensure Keys.sourceColumns (.list [])).ensure
    Keys.targetColumns (.list []))

/-- The form of a job without parameters can be built. -/
theorem ofValues_blank : Form.ofValues (.object []) (taskForm []) = .ok blankForm :=
  Form.ofValues_taskForm ..

/-- The user validates the form, and then gives a JSON template in place of the fields. -/
def customise : List Act :=
  [.validate, .step (.change Keys.customConfig (.bool true) true),
    .step (.change Keys.jsonTemplate (.text "x") true)]

/-- With the JSON template the form is valid; beside the source type stands what the validation before
it found. -/
theorem validate_customise :
    (blankForm.runActs customise).validate =
        ((blankForm.runActs customise).validate.1, .ok []) ∧
      (blankForm.runActs customise).validate.1.resolver.model.indicator? Keys.sourceType =
        some "Required" := by
  have hresult : (blankForm.runActs customise).validate.2.toOption = some [] ∧
      (blankForm.runActs customise).validate.1.resolver.model.indicator? Keys.sourceType =
        some "Required" := by
    decide +kernel
  generalize (blankForm.runActs customise).validate = done at hresult ⊢
  obtain ⟨g, fault | issues⟩ := done
  · cases hresult.1
  · obtain ⟨hissues, hmark⟩ := hresult
    exact ⟨congrArg (fun issues => (g, Except.ok issues)) (Option.some.inj hissues), hmark⟩

/-- The field of the source type is not shown with the JSON template, and the message beside its key
is that of the validation before. -/
theorem indicators_run_customise :
    (blankForm.runActs customise).validate =
        ((blankForm.runActs customise).validate.1, .ok []) ∧
      ∃ d ∈ taskForm [], Keys.sourceType ∈ d.modelKeys ∧
        blankForm.FindingStands d "Required" customise := by
  obtain ⟨hvalidate, hmark⟩ := validate_customise
  obtain ⟨shown, -, hkeys⟩ := indicators_run [] ofValues_blank hvalidate
  have hfield : ∃ d ∈ taskForm [], Keys.sourceType ∈ d.modelKeys := by decide +kernel
  obtain ⟨d, hd, hkey⟩ := hfield
  refine ⟨hvalidate, d, hd, hkey, ?_⟩
  obtain ⟨hshown, hhidden⟩ := hkeys d hd Keys.sourceType hkey
  by_cases hmem : d ∈ shown
  · exact absurd (hmark.symm.trans (hshown hmem)) (Option.some_ne_none _)
  · exact (hhidden hmem).2.2 "Required" hmark

/-- A form of job parameters can be valid, with nothing to block a strict export, while a message of an
earlier validation stands beside a key. -/
theorem indicator_outlives :
    Form.ofValues (.object []) (taskForm []) = .ok blankForm ∧
      ∃ g, (blankForm.runActs customise).validate = (g, .ok []) ∧
        (∀ fault, ¬ (blankForm.runActs customise).Blocked fault) ∧
        (∃ d ∈ taskForm [], d.modelKeys = [Keys.sourceType]) ∧
        g.resolver.model.indicator? Keys.sourceType = some "Required" := by
  obtain ⟨hvalidate, hmark⟩ := validate_customise
  refine ⟨ofValues_blank, _, hvalidate, fun fault hblocked => ?_, ?_, hmark⟩
  · rw [Form.blocked_iff, hvalidate] at hblocked
    cases hblocked
  · decide +kernel

end Template

end SyncForm
