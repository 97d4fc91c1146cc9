import SyncForm.Proofs.Display
import SyncForm.Proofs.Import
import SyncForm.Proofs.Validation

/-!
# Hidden fields

A validation checks the fields that have a weight. In a form of the task table every weight is the one
that the layout gives for the present model (`Form.Laid`), and what is checked about a field are its
own keys and, for the mapping, the type of the target. So the verdict is a function of the layout
inputs and of the values of the fields shown (`Form.Laid.validate_eq_verdict`), and whatever hidden
fields hold, they change neither the verdict nor whether it blocks a strict export
(`Template.validate_hidden`).
-/

namespace SyncForm

/-- What a field shows of a model: nothing for a divider, both lists for the mapping field. -/
def Descriptor.shownValue (d : Descriptor) (m : Model) : Value :=
  match d.modelKeys with
  | [] => .null
  | [key] => m.get key
  | keys => .list (keys.map m.get)

/-- A field shows the same of models that agree in its keys. -/
theorem Descriptor.shownValue_congr (d : Descriptor) {m m' : Model}
    (h : ∀ key ∈ d.modelKeys, m'.get key = m.get key) : d.shownValue m' = d.shownValue m := by
  unfold shownValue
  split
  · rfl
  · next key hkeys => exact h key (by rw [hkeys]; exact .head _)
  · exact congrArg Value.list (List.map_congr_left h)

/-- A field of a table that has a state shows what its model holds. -/
theorem Plan.view_eq_ok {plan : Plan} {r : Resolver} {d : Descriptor} {f : Facet}
    (hready : r.ready = true) (hd : plan.find? d.key = some d)
    (hf : Assoc.valueOf? r.facets d.key = some f) :
    plan.view r d.key =
      .ok { visible := f.visible, choices := f.choices, value := d.shownValue r.model } := by
  have hfacet : r.facet d.key = .ok f := (Resolver.facet_eq_ok hready).2 hf
  unfold view
  rw [if_neg (by simp [hready]), hd]
  dsimp only
  rw [hfacet]
  rfl

/-- A table has each of some fields, and each of them has a state. -/
def Plan.Covers (plan : Plan) (r : Resolver) (fields : List Descriptor) : Prop :=
  ∀ d ∈ fields, plan.find? d.key = some d ∧ ∃ f, Assoc.valueOf? r.facets d.key = some f

/-! ## The verdict on a model -/

namespace Form

/-- What is wrong with some fields of a model, in order. -/
def verdict (m : Model) : List Descriptor → Except Fault (List (String × String))
  | [] => .ok []
  | d :: rest =>
    if d.modelKeys.isEmpty then verdict m rest
    else
      match complaint d (d.shownValue m) m with
      | .error fault => .error fault
      | .ok none => verdict m rest
      | .ok (some message) => (verdict m rest).map ((d.key, message) :: ·)

/-- Models on which all complaints are the same are given the same verdict. -/
theorem verdict_congr {m m' : Model} {fields : List Descriptor}
    (h : ∀ d ∈ fields, complaint d (d.shownValue m') m' = complaint d (d.shownValue m) m) :
    verdict m' fields = verdict m fields := by
  induction fields with
  | nil => rfl
  | cons d rest ih =>
    have hrest := ih fun other hother => h other (.tail _ hother)
    simp only [verdict, hrest, h d (.head _)]

/-- Marking keys with a message changes no complaint. -/
theorem complaint_marked (d : Descriptor) (m : Model) (keys : List String)
    (message : Option String) :
    complaint d (d.shownValue (m.marked keys message)) (m.marked keys message) =
      complaint d (d.shownValue m) m := by
  have hmarked : ∀ key, (m.marked keys message).get key = m.get key :=
    fun key => Model.get_congr (m.value?_marked keys message key)
  rw [d.shownValue_congr fun key _ => hmarked key,
    complaint_congr d _ fun _ _ key _ => hmarked key]

/-- Checking a field that is covered marks its keys with the complaint about what it shows, and the
others are checked on the model marked so. -/
theorem checkFields_cons {plan : Plan} {r : Resolver} {d : Descriptor} {rest : List Descriptor}
    (hready : r.ready = true) (hcovers : plan.Covers r (d :: rest)) :
    checkFields plan r (d :: rest) =
      if d.modelKeys.isEmpty then checkFields plan r rest
      else
        match complaint d (d.shownValue r.model) r.model with
        | .error fault => (r, .error fault)
        | .ok message =>
          let checked :=
            checkFields plan { r with model := r.model.marked d.modelKeys message } rest
          match message with
          | some text => (checked.1, checked.2.map ((d.key, text) :: ·))
          | none => checked := by
  obtain ⟨hd, f, hf⟩ := hcovers d (.head _)
  conv => lhs; unfold checkFields
  rw [Plan.view_eq_ok hready hd hf]
  rfl

/-- Checking fields that are covered gives the verdict on the model. -/
theorem checkFields_eq_verdict {plan : Plan} {r : Resolver} {fields : List Descriptor}
    (hready : r.ready = true) (hcovers : plan.Covers r fields) :
    (checkFields plan r fields).2 = verdict r.model fields := by
  induction fields generalizing r with
  | nil => rfl
  | cons d rest ih =>
    have hothers : plan.Covers r rest := fun other hother => hcovers other (.tail _ hother)
    rw [checkFields_cons hready hcovers]
    unfold verdict
    split
    · exact ih hready hothers
    · cases complaint d (d.shownValue r.model) r.model with
      | error fault => rfl
      | ok message =>
        -- The others are given the verdict on this model.
        have hverdict : verdict (r.model.marked d.modelKeys message) rest = verdict r.model rest :=
          verdict_congr fun other _ => complaint_marked other r.model d.modelKeys message
        have hrest := (ih (r := { r with model := r.model.marked d.modelKeys message }) hready
          hothers).trans hverdict
        cases message with
        | none => exact hrest
        | some text => exact congrArg (Except.map ((d.key, text) :: ·)) hrest

end Form

/-- The fields shown are those to which the layout gives a weight, if the weights kept are those that
it gives. -/
theorem Resolver.shownAmong_eq_ok {r : Resolver} {fields : List Descriptor}
    (hready : r.ready = true) (hfields : ∀ d ∈ fields, ∃ f,
      Assoc.valueOf? r.facets d.key = some f ∧ f.weight = d.weight r.model) :
    r.shownAmong fields = .ok (fields.filter fun d => d.weight r.model != 0) := by
  induction fields with
  | nil => rfl
  | cons d rest ih =>
    obtain ⟨f, hf, hweight⟩ := hfields d (.head _)
    have hrest := ih fun other hother => hfields other (.tail _ hother)
    have hfacet : r.facet d.key = .ok f := (facet_eq_ok hready).2 hf
    rw [shownAmong_cons, hfacet, hrest, List.filter_cons, ← hweight]
    rfl

/-! ## The weights of the task form -/

/-- The layout does not look at the column lists. -/
theorem Side.key_not_mem_layout (side : Side) : side.key ∉ Keys.layout := by
  cases side <;> decide

/-- A form reacts to the column lists alone, so it spares what the layout looks at. -/
theorem Form.spares_layout {key : String} (hkey : key ∈ Keys.layout) : Form.follow.Spares key := by
  refine follow_listsOnly.spares key ?_
  rintro side rfl
  exact side.key_not_mem_layout hkey

namespace Template

variable (disabled : List String) {d : Descriptor}

/-- The fields of the task form that are laid out depend on all inputs of the layout. -/
theorem dependsOn_layout (hd : d ∈ taskForm disabled) (hgroup : d.group.isSome = true) :
    ∀ key ∈ Keys.layout, d.dependsOn.contains key = true := by
  have hstart := setUp_plan disabled Form.follow Model.empty
  exact (Descriptor.of_checkDeclarations (((plan disabled Form.follow).of_setUp hstart).2 d hd)).1
    hgroup

/-- The fields of the task form that the layout shows of a model. -/
def shownFields (m : Model) : List Descriptor :=
  (taskForm disabled).filter fun d => d.weight m != 0

/-- The weight of a field of the task form, as it is derived. -/
def layoutWeight (hd : d ∈ taskForm disabled) : Derived d Int :=
  .weight d (dependsOn_layout disabled hd)

end Template

/-- A form of the task table in which every field has the weight that the layout gives. -/
structure Form.Laid (disabled : List String) (f : Form) : Prop where
  sound : f.Sound disabled
  weights : ∀ d (hd : d ∈ Template.taskForm disabled),
    (Template.layoutWeight disabled hd).Current f.resolver

namespace Form.Laid

variable {disabled : List String} {f : Form}

/-- The form of the task table on a model is laid out. -/
theorem begun (disabled : List String) (m : Model) : (onModel disabled m).Laid disabled where
  sound := sound_onModel disabled m
  weights _ hd := Derived.current_begun ((Template.plan disabled follow).find?_key hd) m

/-- A step takes account of the layout. -/
theorem take (h : f.Laid disabled) (step : Step) : (f.take step).Laid disabled where
  sound := h.sound.take step
  weights d hd := by
    let v := Template.layoutWeight disabled hd
    have hfind : (Template.plan disabled follow).find? d.key = some d :=
      (Template.plan disabled follow).find?_key hd
    have hspares : ∀ key ∈ v.inputs, (Template.plan disabled follow).react.Spares key :=
      fun key hkey => spares_layout (Derived.mem_layout_of_weight hkey)
    -- Offering choices leaves every weight, so any field may be offered any.
    have hquiet : ∀ field, v.Quiet field := fun _ _ _ _ => rfl
    have hnoted : v.Current (f.resolver.noted step) := by
      cases step <;> exact h.weights d hd
    have htaken : v.Current ((Template.plan disabled follow).take (f.resolver.noted step) step) := by
      cases step with
      | change key value running =>
        exact hnoted.change hfind hspares (fun _ _ _ field _ => hquiet field) key value running
      | prime running => exact hnoted.prime running
      | complete number ending =>
        unfold Plan.take
        dsimp only
        split
        · exact hnoted.complete hfind hspares fun _ _ field _ => hquiet field
        · exact hnoted
    rw [take_eq, h.sound.plan]
    exact htaken

/-- A model with the same inputs of the layout keeps the weights. -/
theorem remodel (h : f.Laid disabled) {m : Model} {journal : List Event}
    (hsound : Form.Sound disabled { f with resolver := { f.resolver with model := m, journal } })
    (hm : ∀ key ∈ Keys.layout, m.value? key = f.resolver.model.value? key) :
    Form.Laid disabled { f with resolver := { f.resolver with model := m, journal } } where
  sound := hsound
  weights d hd := (h.weights d hd).remodel fun key hkey => hm key (Derived.mem_layout_of_weight hkey)

/-- An act takes account of the layout. -/
theorem act (h : f.Laid disabled) (act : Act) : (f.act act).Laid disabled := by
  have hsound := h.sound.act act
  cases act with
  | step step => exact h.take step
  | edit call =>
    obtain ⟨m, journal, hm, hlocal⟩ := call.local_run f
    rw [Form.act, hm] at hsound ⊢
    refine h.remodel hsound fun key hkey => Model.value?_congr (hlocal.others key ?_)
    rintro side rfl
    exact side.key_not_mem_layout hkey
  | validate =>
    obtain ⟨m, hm, hvalues⟩ := f.validate_model
    rw [Form.act, hm] at hsound ⊢
    exact h.remodel hsound fun key _ => hvalues key
  | toParams strict =>
    obtain ⟨m, journal, hm, -, hvalues⟩ := f.toParams_model disabled h.sound.plan strict
    rw [Form.act, hm] at hsound ⊢
    refine h.remodel hsound fun key hkey => hvalues key ?_
    rintro rfl
    revert hkey
    decide

/-- Acts take account of the layout. -/
theorem runActs (h : f.Laid disabled) (acts : List Act) : (f.runActs acts).Laid disabled := by
  induction acts generalizing f with
  | nil => exact h
  | cons act rest ih => exact ih (h.act act)

/-- The state of a field has the weight that the layout gives. -/
theorem exists_facet (h : f.Laid disabled) {d : Descriptor} (hd : d ∈ Template.taskForm disabled) :
    ∃ facet, Assoc.valueOf? f.resolver.facets d.key = some facet ∧
      facet.weight = d.weight f.resolver.model :=
  Option.map_eq_some_iff.1 (h.weights d hd)

/-- The fields shown are those that the layout shows. -/
theorem visibleFields (h : f.Laid disabled) :
    f.visibleFields = .ok (Template.shownFields disabled f.resolver.model) := by
  have hshown := Resolver.shownAmong_eq_ok h.sound.tracked.ready fun d hd => h.exists_facet hd
  have hfields : f.plan.descriptors = Template.taskForm disabled := by
    rw [h.sound.plan]
    rfl
  rw [Template.shownFields, ← hshown, ← hfields]
  rfl

/-- The table of the form has the fields that the layout shows of a model, and they have states. -/
theorem covers_shownFields (h : f.Laid disabled) (m : Model) :
    f.plan.Covers f.resolver (Template.shownFields disabled m) := by
  intro d hd
  have hd := (List.mem_filter.1 hd).1
  obtain ⟨facet, hfacet, -⟩ := h.exists_facet hd
  rw [h.sound.plan]
  exact ⟨(Template.plan disabled follow).find?_key hd, facet, hfacet⟩

/-- A validation of a form that is laid out is a verdict on its model. -/
theorem validate_eq_verdict (h : f.Laid disabled) :
    f.validate.2 = verdict f.resolver.model (Template.shownFields disabled f.resolver.model) := by
  unfold validate
  rw [h.visibleFields]
  exact checkFields_eq_verdict h.sound.tracked.ready (h.covers_shownFields _)

end Form.Laid

/-- A form of job parameters is laid out, whatever is done to it. -/
theorem Form.laid_runActs {disabled : List String} {values : Value} {f : Form}
    (h : ofValues values (Template.taskForm disabled) = .ok f) (acts : List Act) :
    (f.runActs acts).Laid disabled := by
  obtain ⟨m, rfl, -⟩ := exists_onModel h
  exact (Laid.begun disabled m).runActs acts

/-! ## What hidden fields hold -/

/-- A field without its loader, which is all that the types not offered have a part in. -/
def Descriptor.unloaded (d : Descriptor) : Descriptor :=
  { d with loader := none }

/-- A verdict does not look at loaders. -/
theorem Form.verdict_unloaded (m : Model) (fields : List Descriptor) :
    verdict m (fields.map Descriptor.unloaded) = verdict m fields := by
  induction fields with
  | nil => rfl
  | cons d rest ih =>
    simp only [List.map_cons, verdict, ih]
    rfl

namespace Template

variable (disabled : List String)

/-- The task forms differ in their loaders at most. -/
theorem unloaded_taskForm :
    (taskForm disabled).map Descriptor.unloaded = (taskForm []).map Descriptor.unloaded :=
  rfl

/-- The types that are not offered have no part in the verdict on the fields shown. -/
theorem verdict_shownFields (disabled' : List String) (m : Model) :
    Form.verdict m (shownFields disabled' m) = Form.verdict m (shownFields disabled m) := by
  have hshown : ∀ disabled, (shownFields disabled m).map Descriptor.unloaded =
      ((taskForm []).map Descriptor.unloaded).filter fun d => d.weight m != 0 := by
    intro disabled
    rw [← unloaded_taskForm disabled, List.filter_map]
    rfl
  rw [← Form.verdict_unloaded, hshown, ← hshown disabled, Form.verdict_unloaded]

/-- The rules of a field look at its own keys and at inputs of the layout. -/
theorem reads_taskForm {d : Descriptor} (hd : d ∈ taskForm disabled) {rule : Rule}
    (hrule : rule ∈ d.rules) {key : String} (hkey : key ∈ rule.reads) :
    key ∈ d.modelKeys ∨ key ∈ Keys.layout := by
  -- Rules and keys are the same in all task forms, so the fields of one are looked through.
  have hall : ∀ e ∈ (taskForm []).map Descriptor.unloaded, ∀ rule ∈ e.rules, ∀ key ∈ rule.reads,
      key ∈ e.modelKeys ∨ key ∈ Keys.layout := by
    decide +kernel
  rw [← unloaded_taskForm disabled] at hall
  exact hall d.unloaded (List.mem_map_of_mem hd) rule hrule key hkey

/-- Models that agree in the inputs of the layout and in the keys of the fields shown are given the
same verdict. -/
theorem verdict_eq {m m' : Model} (hlayout : ∀ key ∈ Keys.layout, m'.get key = m.get key)
    (hshown : ∀ d ∈ shownFields disabled m, ∀ key ∈ d.modelKeys, m'.get key = m.get key) :
    Form.verdict m' (shownFields disabled m') = Form.verdict m (shownFields disabled m) := by
  have hfields : shownFields disabled m' = shownFields disabled m := by
    unfold shownFields
    simp only [fun d : Descriptor => d.weight_congr fun _ => hlayout]
  rw [hfields]
  refine Form.verdict_congr fun d hd => ?_
  have hkeys := hshown d hd
  rw [d.shownValue_congr hkeys]
  refine Form.complaint_congr d _ fun rule hrule key hkey => ?_
  exact (reads_taskForm disabled (List.mem_filter.1 hd).1 hrule hkey).elim (hkeys key) (hlayout key)

end Template

namespace Form

/-- The fault with which the result of a validation blocks a strict export. -/
def barrier : Except Fault (List (String × String)) → Option Fault
  | .error fault => some fault
  | .ok [] => none
  | .ok issues => some (invalid issues)

/-- A strict export is an export if nothing blocks it. -/
theorem toParams_strict (f : Form) :
    f.toParams true = match barrier f.validate.2 with
      | some fault => (f.validate.1, .error fault)
      | none => f.validate.1.exportParams := by
  unfold toParams
  rw [if_pos rfl]
  obtain ⟨g, fault | _ | ⟨issue, issues⟩⟩ := f.validate <;> rfl

/-- A validation blocks a strict export: something is wrong with the form, and the export ends in a
fault with nothing exported. -/
def Blocked (f : Form) (fault : Fault) : Prop :=
  f.validate.2 ≠ .ok [] ∧ f.toParams true = (f.validate.1, .error fault)

/-- What blocks a strict export is the barrier that the validation puts up. -/
theorem blocked_iff (f : Form) (fault : Fault) :
    f.Blocked fault ↔ barrier f.validate.2 = some fault := by
  unfold Blocked
  rw [toParams_strict]
  obtain ⟨g, found | _ | ⟨issue, issues⟩⟩ := f.validate <;> simp [barrier]

end Form

namespace Template

/-- A form of the task table that job parameters and acts lead to. -/
def Arises (f : Form) : Prop :=
  ∃ values disabled start acts,
    Form.ofValues values (taskForm disabled) = .ok start ∧ f = start.runActs acts

/-- A form that job parameters and acts lead to is laid out. -/
theorem Arises.laid {f : Form} (h : Arises f) : ∃ disabled, f.Laid disabled := by
  obtain ⟨values, disabled, start, acts, hstart, rfl⟩ := h
  exact ⟨disabled, Form.laid_runActs hstart acts⟩

/-- Hidden fields never influence validation. Two task forms that agree in the inputs of the layout
and in every key of the fields shown validate alike, with the same messages in the same order or the
same fault, and a strict export is blocked by the same fault in both or goes through in both, whatever
else they hold and however they came about. -/
theorem validate_hidden {f f' : Form} (h : Arises f) (h' : Arises f')
    (hlayout : ∀ key ∈ Keys.layout, f'.resolver.model.get key = f.resolver.model.get key)
    (hshown : ∀ shown, f.visibleFields = .ok shown → ∀ d ∈ shown, ∀ key ∈ d.modelKeys,
      f'.resolver.model.get key = f.resolver.model.get key) :
    f'.validate.2 = f.validate.2 ∧
      ((∃ fault, f.Blocked fault ∧ f'.Blocked fault) ∨
        (∀ fault, ¬ f.Blocked fault ∧ ¬ f'.Blocked fault) ∧
          f.toParams true = f.validate.1.exportParams ∧
          f'.toParams true = f'.validate.1.exportParams) := by
  obtain ⟨disabled, hlaid⟩ := h.laid
  obtain ⟨disabled', hlaid'⟩ := h'.laid
  have hsame : f'.validate.2 = f.validate.2 := calc
    f'.validate.2 = Form.verdict f'.resolver.model (shownFields disabled' f'.resolver.model) :=
      hlaid'.validate_eq_verdict
    _ = Form.verdict f'.resolver.model (shownFields disabled f'.resolver.model) :=
      verdict_shownFields disabled disabled' f'.resolver.model
    _ = Form.verdict f.resolver.model (shownFields disabled f.resolver.model) :=
      verdict_eq disabled hlayout (hshown _ hlaid.visibleFields)
    _ = f.validate.2 := hlaid.validate_eq_verdict.symm
  refine ⟨hsame, ?_⟩
  -- The same result puts up the same barrier in both forms.
  cases hbarrier : Form.barrier f.validate.2 with
  | some fault =>
    exact .inl ⟨fault, (f.blocked_iff fault).2 hbarrier,
      (f'.blocked_iff fault).2 (hsame ▸ hbarrier)⟩
  | none =>
    have hbarrier' : Form.barrier f'.validate.2 = none := hsame ▸ hbarrier
    refine .inr ⟨fun fault => ?_, ?_, ?_⟩
    · rw [Form.blocked_iff, Form.blocked_iff, hbarrier, hbarrier']
      exact ⟨nofun, nofun⟩
    · rw [Form.toParams_strict, hbarrier]
    · rw [Form.toParams_strict, hbarrier']

/-- The parameters of a job that uses the custom template. -/
def customJob : Assoc Value :=
  [(Keys.customConfig, .bool true)]

/-- Under the custom template a custom parameter that is no list is hidden, and the form is found to
lack its JSON template just as without it. -/
theorem validate_hidden_param :
    ∃ f f', Arises f ∧ Arises f' ∧
      f'.resolver.model.get Keys.localParams = .int 5 ∧
      f.resolver.model.get Keys.localParams = .list [] ∧
      f'.validate.2 = .ok [(Keys.jsonTemplate, "Required")] ∧
      ∃ fault, f.Blocked fault ∧ f'.Blocked fault := by
  let m := ((Model.ofMembers customJob).ensure Keys.sourceColumns (.list [])).ensure
    Keys.targetColumns (.list [])
  have hf : Form.ofValues (.object customJob) (taskForm []) = .ok (Form.onModel [] m) :=
    Form.ofValues_taskForm ..
  let f := Form.onModel [] m
  have hsound : f.Sound [] := Form.sound_ofValues hf
  have hlaid : f.Laid [] := .begun [] m
  have howned : (plan [] Form.follow).ownedKeys.contains Keys.localParams = true := by
    decide +kernel
  have hheld : f.resolver.model.holds Keys.localParams = true :=
    (plan [] Form.follow).holds_begun m howned
  let step : Step := .change Keys.localParams (.int 5) true
  let f' := f.take step
  have harises : Arises f := ⟨.object customJob, [], f, [], hf, rfl⟩
  have harises' : Arises f' := ⟨.object customJob, [], f, [.step step], hf, rfl⟩
  have hplain : (plan [] Form.follow).trigger? Keys.localParams = none := by rfl
  have hlist : ∀ side : Side, Keys.localParams ≠ side.key := by rintro (_ | _) <;> decide
  have hvalue := hsound.value?_take_plain (.int 5) true hplain hheld hlist
  have hother : ∀ key, Keys.localParams ≠ key →
      f'.resolver.model.get key = f.resolver.model.get key := by
    intro key hkey
    refine Model.get_congr ?_
    rw [hvalue, if_neg hkey]
  have husual : f.resolver.model.get Keys.localParams = .list [] := by
    have hentry := (plan [] Form.follow).find?_begun m Keys.localParams
    rw [if_pos howned] at hentry
    exact Model.get_of_value? (Model.value?_of_find? hentry)
  have hhidden : ∀ d ∈ shownFields [] f.resolver.model, Keys.localParams ∉ d.modelKeys := by
    decide +kernel
  have hlayout : ∀ key ∈ Keys.layout, f'.resolver.model.get key = f.resolver.model.get key := by
    intro key hkey
    refine hother key ?_
    rintro rfl
    revert hkey
    decide
  have hshown : ∀ shown, f.visibleFields = .ok shown → ∀ d ∈ shown, ∀ key ∈ d.modelKeys,
      f'.resolver.model.get key = f.resolver.model.get key := by
    intro shown hvisible d hd key hkey
    obtain rfl := Except.ok.inj (hlaid.visibleFields.symm.trans hvisible)
    refine hother key ?_
    rintro rfl
    exact hhidden d hd hkey
  obtain ⟨hsame, hblocked⟩ := validate_hidden harises harises' hlayout hshown
  have hverdict : f.validate.2 = .ok [(Keys.jsonTemplate, "Required")] := by
    have hissues : f.validate.2.toOption = some [(Keys.jsonTemplate, "Required")] := by
      decide +kernel
    cases hresult : f.validate.2 with
    | error fault => rw [hresult] at hissues; cases hissues
    | ok issues =>
      rw [hresult] at hissues
      exact congrArg Except.ok (Option.some.inj hissues)
  refine ⟨f, f', harises, harises', ?_, husual, hsame.trans hverdict, ?_⟩
  · refine Model.get_of_value? ?_
    rw [hvalue, if_pos rfl]
  · refine hblocked.resolve_right fun hclear => ?_
    have hfree := (hclear.1 (Form.invalid [(Keys.jsonTemplate, "Required")])).1
    rw [Form.blocked_iff, hverdict] at hfree
    exact hfree rfl

end Template

end SyncForm
