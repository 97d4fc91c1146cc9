import Mathlib.Data.List.Nodup
import SyncForm.Proofs.Reachable

/-!
# Derived state

The weight of a field, and its choices where a rule gives them, are computed from the model and kept
in the state of the field. `Derived` is such a part of the state, with the law that gives it and the
keys that the law looks at; the field depends on all of them. A key that is written and not announced
yet may put what a field shows out of date, no other one does (`Derived.Lags`), and each announcement
settles its key. So after every step all that is derived is what the model gives
(`Derived.current_reaches`).
-/

namespace SyncForm

/-- The values of a lookup leave the entries of all other keys. -/
theorem Model.find?_setLookups_other {values : Assoc Value} {key : String}
    (h : key ∉ Assoc.keys values) (m : Model) :
    (values.foldl (fun m (key, value) => m.setLookup key value) m).find? key = m.find? key := by
  induction values generalizing m with
  | nil => rfl
  | cons kv rest ih =>
    have hne : kv.1 ≠ key := fun heq => h (heq ▸ .head _)
    have hrest : key ∉ Assoc.keys rest := fun hmem => h (.tail _ hmem)
    rw [List.foldl_cons, ih hrest]
    exact (find?_write ..).trans (if_neg hne)

/-- The values of a lookup show under their own keys only. -/
theorem Model.value?_setLookups {m : Model} {values : Assoc Value} {key : String}
    (h : key ∉ Assoc.keys values) :
    (values.foldl (fun m (key, value) => m.setLookup key value) m).value? key = m.value? key :=
  value?_congr (find?_setLookups_other h m)

/-- The state of a field is there to be asked for once a resolver is ready. -/
theorem Resolver.facet_eq_ok {r : Resolver} (hready : r.ready = true) {key : String} {f : Facet} :
    r.facet key = .ok f ↔ Assoc.valueOf? r.facets key = some f := by
  unfold facet
  rw [if_pos hready]
  cases Assoc.valueOf? r.facets key with
  | none => exact iff_of_false (fun h => nomatch h) (fun h => nomatch h)
  | some g =>
    constructor
    · intro h
      exact congrArg some (Except.ok.inj h)
    · intro h
      exact congrArg Except.ok (Option.some.inj h)

/-- A field that is laid out has the same weight in models that agree in the inputs of the layout, any
other one in all models. -/
theorem Descriptor.weight_congr (d : Descriptor) {m m' : Model}
    (h : d.group.isSome = true → ∀ key ∈ Keys.layout, m'.get key = m.get key) :
    d.weight m' = d.weight m := by
  unfold weight
  cases hgroup : d.group with
  | none => rfl
  | some group =>
    have hget := h (by rw [hgroup]; rfl)
    have hspans : Layout.spansOf m' = Layout.spansOf m := by
      rw [Layout.spansOf, Layout.spansOf, hget Keys.customConfig (by decide),
        hget Keys.sourceType (by decide), hget Keys.targetType (by decide)]
    dsimp only
    rw [hspans]

/-- A part of the state of a field that the model determines. -/
structure Derived (d : Descriptor) (α : Type) where
  part : Facet → α
  law : Model → α
  inputs : List String
  declared : ∀ key ∈ inputs, d.dependsOn.contains key = true
  initial : ∀ m, part (d.initialFacet m) = law m
  refreshed : ∀ m f, part (d.refresh m f) = law m
  congr : ∀ m m', (∀ key ∈ inputs, m'.value? key = m.value? key) → law m' = law m

namespace Derived

/-- The weight of a field is derived from the inputs of the layout, if it is laid out at all. -/
def weight (d : Descriptor)
    (h : d.group.isSome = true → ∀ key ∈ Keys.layout, d.dependsOn.contains key = true) :
    Derived d Int where
  part := Facet.weight
  law := d.weight
  inputs := if d.group.isSome then Keys.layout else []
  declared key hkey := by
    split at hkey
    · next hgroup => exact h hgroup key hkey
    · exact absurd hkey List.not_mem_nil
  initial _ := rfl
  refreshed _ _ := rfl
  congr m m' hm := by
    refine d.weight_congr fun hgroup key hkey => Model.get_congr (hm key ?_)
    rwa [if_pos hgroup]

/-- The weight of a field looks at inputs of the layout only. -/
theorem mem_layout_of_weight {d : Descriptor}
    {h : d.group.isSome = true → ∀ key ∈ Keys.layout, d.dependsOn.contains key = true}
    {key : String} (hkey : key ∈ (weight d h).inputs) : key ∈ Keys.layout := by
  have hinputs : key ∈ if d.group.isSome then Keys.layout else [] := hkey
  split at hinputs
  · exact hinputs
  · exact absurd hinputs List.not_mem_nil

/-- The choices of a field with a rule are derived from the keys that the rule looks at. -/
def choices {d : Descriptor} {rule : ChoiceRule} (hrule : d.choiceRule = some rule)
    (hreads : ∀ key ∈ rule.reads, d.dependsOn.contains key = true)
    (hbuild : ∀ m m', (∀ key ∈ rule.reads, m'.value? key = m.value? key) →
      rule.build m' = rule.build m) : Derived d (List Choice) where
  part := Facet.choices
  law := rule.build
  inputs := rule.reads
  declared := hreads
  initial m := by
    unfold Descriptor.initialFacet Descriptor.initialChoices
    rw [hrule]
  refreshed m f := by
    unfold Descriptor.refresh
    rw [hrule]
  congr := hbuild

variable {d : Descriptor} {α : Type} (v : Derived d α)

/-- What a field shows is what the present model gives. -/
def Current (r : Resolver) : Prop :=
  (Assoc.valueOf? r.facets d.key).map v.part = some (v.law r.model)

/-- What a field shows is what a model gives that differs from the present one under some keys
only. -/
def Lags (r : Resolver) (keys : List String) : Prop :=
  ∃ shown : Model, (Assoc.valueOf? r.facets d.key).map v.part = some (v.law shown) ∧
    ∀ key ∈ v.inputs, key ∉ keys → r.model.value? key = shown.value? key

/-- Choices offered by a field are no part of what is derived. -/
def Quiet (field : String) : Prop :=
  field = d.key → ∀ f choices, v.part { f with choices } = v.part f

variable {v} {plan : Plan} {r : Resolver}

/-- A field that lags behind under no key is up to date. -/
theorem Lags.current (h : v.Lags r []) : v.Current r := by
  obtain ⟨shown, hshown, hagree⟩ := h
  have hlaw : v.law r.model = v.law shown :=
    v.congr shown r.model fun key hkey => hagree key hkey List.not_mem_nil
  rw [Current, hshown, hlaw]

/-- A field that is up to date lags behind under the keys that are written next. -/
theorem Current.lags (h : v.Current r) {m : Model} {keys : List String}
    (hm : ∀ key, key ∉ keys → m.value? key = r.model.value? key) :
    v.Lags { r with model := m } keys :=
  ⟨r.model, h, fun key _ hkey => hm key hkey⟩

/-- What a field shows stays up to date under a model with the same inputs. -/
theorem Current.remodel (h : v.Current r) {m : Model}
    (hm : ∀ key ∈ v.inputs, m.value? key = r.model.value? key) :
    v.Current { r with model := m } :=
  Lags.current ⟨r.model, h, fun key hkey _ => hm key hkey⟩

section

variable (hd : plan.find? d.key = some d) (hspares : ∀ key ∈ v.inputs, plan.react.Spares key)

include hd hspares

/-- Announcing a key settles it. -/
theorem Lags.propagate {key : String} {keys : List String} (h : v.Lags r (key :: keys)) :
    v.Lags (plan.propagate r key) keys := by
  obtain ⟨shown, hshown, hagree⟩ := h
  obtain ⟨f, hf, hpart⟩ := Option.map_eq_some_iff.1 hshown
  have hmodel : ∀ input ∈ v.inputs,
      (plan.propagate r key).model.value? input = r.model.value? input :=
    fun input hinput => plan.value?_propagate (hspares input hinput) r key
  have hfacet : Assoc.valueOf? (plan.propagate r key).facets d.key =
      some (if d.dependsOn.contains key then d.refresh (plan.announce r key).model f else f) := by
    simp only [plan.valueOf?_propagate, hf, Option.map_some, Plan.refreshed, hd]
  by_cases hdepends : d.dependsOn.contains key = true
  · refine ⟨(plan.announce r key).model, ?_, fun input hinput _ => rfl⟩
    rw [hfacet, if_pos hdepends, Option.map_some, v.refreshed]
  · refine ⟨shown, ?_, fun input hinput hkeys => ?_⟩
    · rw [hfacet, if_neg hdepends, Option.map_some, hpart]
    · -- The field depends on all inputs, so the key announced is none of them.
      have hne : input ≠ key := fun heq => hdepends (heq ▸ v.declared input hinput)
      rw [hmodel input hinput, hagree input hinput]
      exact fun hmem => (List.mem_cons.1 hmem).elim hne hkeys

/-- Announcing several keys settles them. -/
theorem Lags.propagates {keys : List String} (h : v.Lags r keys) :
    v.Current (keys.foldl plan.propagate r) := by
  induction keys generalizing r with
  | nil => exact h.current
  | cons key rest ih => exact ih (h.propagate hd hspares)

/-- A value of the user is taken account of. -/
theorem Current.write (h : v.Current r) (key : String) (value : Value) :
    v.Current (plan.write r key value) := by
  have hlags : v.Lags { r with model := r.model.setUser key value } [key] := by
    refine h.lags fun other hother => ?_
    have hne : key ≠ other := fun heq => hother (List.mem_singleton.2 heq.symm)
    rw [Model.value?_setUser, if_neg hne]
  exact (hlags.propagate hd hspares).current

omit hd hspares

/-- Choices that are no part of what is derived may be offered. -/
theorem Current.offer (h : v.Current r) {field : String} (hquiet : v.Quiet field)
    (choices : List Choice) : v.Current (r.offer field choices) := by
  unfold Current Resolver.offer at *
  rw [Assoc.valueOf?_adjust]
  split
  · next hfield =>
    rw [Option.map_map, ← h]
    congr 1
    funext f
    exact hquiet hfield f choices
  · exact h

/-- Choices that are no part of what is derived may be offered, several at once. -/
theorem Current.offerAll (h : v.Current r) {choices : Assoc (List Choice)}
    (hquiet : ∀ field ∈ Assoc.keys choices, v.Quiet field) : v.Current (r.offerAll choices).1 := by
  induction choices generalizing r with
  | nil => exact h
  | cons fc rest ih =>
    obtain ⟨field, offered⟩ := fc
    unfold Resolver.offerAll
    split
    · exact ih (h.offer (hquiet field (.head _)) offered) fun other hother =>
        hquiet other (.tail _ hother)
    · exact h

include hd hspares

/-- A cascade is taken account of. -/
theorem Current.runSteps (h : v.Current r) {steps : List CascadeStep}
    (hquiet : ∀ field, steps.any (·.empties field) = true → v.Quiet field) :
    v.Current (steps.foldl plan.runStep r) := by
  induction steps generalizing r with
  | nil => exact h
  | cons step rest ih =>
    refine ih ?_ fun field hfield => hquiet field ?_
    · cases step with
      | empty field =>
        exact h.offer (hquiet field (by simp [CascadeStep.empties])) []
      | supersede name => exact h
      | reset key =>
        have hlags : v.Lags { r with model := r.model.clear key (plan.usual key) } [key] := by
          refine h.lags fun other hother => ?_
          have hne : key ≠ other := fun heq => hother (List.mem_singleton.2 heq.symm)
          rw [Model.value?_clear, if_neg hne]
        exact (hlags.propagate hd hspares).current
    · rw [List.any_cons, hfield, Bool.or_true]

omit hd hspares in
/-- Where the choices that triggers fill are no part of what is derived, no cascade empties any that
are. -/
theorem quiet_cascade
    (hquiet : ∀ key t, plan.trigger? key = some t → ∀ field ∈ t.choiceKeys, v.Quiet field)
    {key : String} {t : Trigger} (ht : plan.trigger? key = some t) (field : String)
    (hfield : (plan.cascade key t).any (·.empties field) = true) : v.Quiet field := by
  obtain ⟨upper, -, t', ht', hfills⟩ := (plan.any_empties_cascade ht field).1 hfield
  exact hquiet upper t' ht' field hfills

/-- A change is taken account of. -/
theorem Current.change (h : v.Current r)
    (hquiet : ∀ key t, plan.trigger? key = some t → ∀ field ∈ t.choiceKeys, v.Quiet field)
    (key : String) (value : Value) (running : Bool) :
    v.Current (plan.change r key value running).1 := by
  have hwritten := h.write hd hspares key value
  rcases plan.change_cases r key value running with
    ⟨fault, hchange⟩ | ⟨-, -, -, hchange⟩ | ⟨t, ht, -, -, -, hchange⟩
  · rw [hchange]
    exact h
  · rw [hchange]
    exact hwritten
  · rw [hchange]
    exact hwritten.runSteps hd hspares (quiet_cascade hquiet ht)

omit hd hspares in
/-- A first load leaves all that is derived. -/
theorem Current.prime (h : v.Current r) (running : Bool) : v.Current (plan.prime r running).1 := by
  obtain ⟨hmodel, hfacets, -⟩ := plan.prime_model r running
  rw [Current, hmodel, hfacets]
  exact h

/-- The end of a lookup is taken account of, whatever it writes back, if the choices that it offers
are no part of what is derived. -/
theorem Current.complete (h : v.Current r) {l : Lookup}
    {answer : Except Fault (Option LookupResult)}
    (hquiet : ∀ result, answer = .ok (some result) →
      ∀ field ∈ Assoc.keys result.choices, v.Quiet field) :
    v.Current (plan.complete r l answer).1 := by
  obtain ⟨journal, hdone⟩ := plan.complete_resolver r l answer
  rcases hdone with hdone | ⟨cause, -, hdone⟩ | ⟨result, hanswer, hdone⟩
  · rw [hdone]
    exact h
  · rw [hdone]
    have hfailed : v.Current (Plan.fail (r.without l) l cause).1 :=
      h.remodel fun key _ => Plan.value?_fail (r.without l) l cause key
    exact hfailed
  · rw [hdone]
    have happlied : v.Current (plan.apply (r.without l) result).1 := by
      have hwithout : v.Current (r.without l) := h
      have hoffered := hwithout.offerAll (hquiet result hanswer)
      unfold Plan.apply
      split
      · next hfault => rwa [hfault] at hoffered
      · next hok =>
        rw [hok] at hoffered
        refine Lags.propagates hd hspares (hoffered.lags fun key hkey => ?_)
        exact Model.value?_setLookups hkey
    exact happlied

variable {ends : Lookup → Except Fault (Option LookupResult) → Prop} {m : Model}

omit hspares in
/-- At the start all that is derived is up to date. -/
theorem current_begun (m : Model) : v.Current (plan.begun m) := by
  rw [Current, plan.valueOf?_begun, hd]
  exact congrArg some (v.initial _)

/-- Derived state never goes out of date: in every state that is reached a field shows what the
model gives, if the form spares the inputs and no lookup offers what is derived. -/
theorem current_reaches
    (hquiet : ∀ key t, plan.trigger? key = some t → ∀ field ∈ t.choiceKeys, v.Quiet field)
    (hends : ∀ l answer result, plan.Issues l → ends l answer → answer = .ok (some result) →
      ∀ field ∈ Assoc.keys result.choices, v.Quiet field)
    (h : plan.Reaches ends m r) : v.Current r := by
  induction h with
  | start hstart =>
    rw [(plan.of_setUp hstart).1]
    exact current_begun hd m
  | change key value running _ ih => exact ih.change hd hspares hquiet key value running
  | prime running _ ih => exact ih.prime running
  | complete hr hl hend ih =>
    exact ih.complete hd hspares fun result => hends _ _ result (hr.fits.issued _ hl) hend

end

end Derived

namespace Plan

variable (plan : Plan) {d : Descriptor}

/-- A field of a table is found under its key. -/
theorem find?_key (hd : d ∈ plan.descriptors) : plan.find? d.key = some d := by
  unfold find?
  cases hfind : plan.descriptors.find? (·.key == d.key) with
  | none =>
    have hnot := List.find?_eq_none.1 hfind d hd
    exact absurd (beq_self_eq_true d.key) hnot
  | some e =>
    have hkey : e.key = d.key := by simpa using List.find?_some hfind
    exact congrArg some
      (List.inj_on_of_nodup_map plan.distinct (List.mem_of_find?_eq_some hfind) hd hkey)

variable {plan} {ends : Lookup → Except Fault (Option LookupResult) → Prop} {m : Model}
  {r : Resolver}

/-- In every state that is reached every field has the weight that the model gives. -/
theorem weight_reaches (hspares : ∀ key ∈ Keys.layout, plan.react.Spares key)
    (h : plan.Reaches ends m r) (hd : d ∈ plan.descriptors) :
    ∃ f, r.facet d.key = .ok f ∧ f.weight = d.weight r.model := by
  let v := Derived.weight d (Descriptor.of_checkDeclarations (h.checked d hd)).1
  have hinputs : ∀ key ∈ v.inputs, plan.react.Spares key := fun key hkey =>
    hspares key (Derived.mem_layout_of_weight hkey)
  have hquiet : ∀ field, v.Quiet field := fun field _ f choices => rfl
  have hcurrent : v.Current r := Derived.current_reaches (plan.find?_key hd) hinputs
    (fun _ _ _ field _ => hquiet field) (fun _ _ _ _ _ _ field _ => hquiet field) h
  obtain ⟨f, hf, hweight⟩ := Option.map_eq_some_iff.1 hcurrent
  exact ⟨f, (Resolver.facet_eq_ok h.fits.ready).2 hf, hweight⟩

end Plan

end SyncForm
