import SyncForm.Proofs.Start

/-!
# The states that a resolver reaches

A table is accepted where making a resolver ready succeeds. From there on a resolver goes through
changes, first loads and ends of lookups in any order; `Plan.Reaches` is what it may come to, where
`ends` says which ends of a lookup are looked at. In each of these states the resolver is ready, has
a state for every field and a counter for every lookup of the table, and the lookups in flight are
lookups of the table (`Plan.Fits`).
-/

namespace SyncForm

/-- The lookup of a field that a change of the field triggers. -/
structure Lookup.OfTrigger (l : Lookup) (key : String) (t : Trigger) : Prop where
  trigger : l.ticket.trigger = key
  fetch : l.fetch = t.fetch
  compareKey : l.compareKey = some key
  value : l.ticket.value = Snapshot.get l.snapshot key

/-- The lookup of a field that loads its choices. -/
structure Lookup.OfChoices (l : Lookup) (key : String) (t : Trigger) : Prop where
  trigger : l.ticket.trigger = loaderName key
  fetch : l.fetch = t.fetch
  compareKey : l.compareKey = none

/-- Where actions succeed one after the other, each of them does. -/
theorem of_forM_eq_ok {ε α : Type} {f : α → Except ε Unit} {xs : List α}
    (h : xs.forM f = .ok ()) : ∀ x ∈ xs, f x = .ok () := by
  induction xs with
  | nil =>
    intro x hx
    exact absurd hx List.not_mem_nil
  | cons y rest ih =>
    cases hy : f y with
    | error fault =>
      have hforM : (y :: rest).forM f = .error fault := by
        refine (congrArg (· >>= fun _ => rest.forM f) hy).trans ?_
        rfl
      rw [hforM] at h
      cases h
    | ok u =>
      have hrest : rest.forM f = .ok () := by
        refine Eq.trans ?_ h
        exact (congrArg (· >>= fun _ => rest.forM f) hy).symm
      intro x hx
      rcases List.mem_cons.1 hx with rfl | hmem
      · exact hy
      · exact ih hrest x hmem

namespace Assoc

variable {α : Type}

/-- A key is held just if it is among the keys. -/
theorem isSome_valueOf? (a : Assoc α) (key : String) :
    (valueOf? a key).isSome = true ↔ key ∈ keys a :=
  (mem_keys_iff a key).symm

/-- Writing a key leaves the keys that are held. -/
theorem mem_keys_put {a : Assoc α} {key other : String} {value : α}
    (h : other ∈ keys a ∨ other = key) : other ∈ keys (put a key value) := by
  rw [← isSome_valueOf?, valueOf?_put]
  split
  · rfl
  · next hne =>
    rcases h with hmem | hself
    · exact (isSome_valueOf? a other).2 hmem
    · exact absurd hself.symm hne

end Assoc

namespace Descriptor

variable {d : Descriptor} {fields : List String} {m : Model}

/-- Where nothing is missed, nothing is missing. -/
theorem eq_nil_of_demand {message : String} {missing : List String}
    (h : d.demand message missing = .ok ()) : missing = [] := by
  unfold demand at h
  split at h
  · next hempty => exact List.isEmpty_iff.1 hempty
  · cases h

/-- What a field that passes the check of its declarations declares: a laid-out one the inputs of
the layout, and its lookup fills the choices of fields that there are. -/
theorem of_checkDeclarations (h : d.checkDeclarations fields m = .ok ()) :
    (d.group.isSome = true → ∀ key ∈ Keys.layout, d.dependsOn.contains key = true) ∧
      ∀ t, d.trigger = some t → ∀ field ∈ t.choiceKeys, field ∈ fields := by
  unfold checkDeclarations at h
  constructor
  · intro hgroup key hkey
    rw [if_pos hgroup] at h
    cases hdemand : d.demand "Laid-out field does not declare its layout inputs"
      (Keys.layout.filter (!d.dependsOn.contains ·)) with
    | error fault =>
      rw [hdemand] at h
      cases h
    | ok =>
      have hnil := eq_nil_of_demand hdemand
      simpa using List.filter_eq_nil_iff.1 hnil key hkey
  · intro t ht field hfield
    cases hfind : t.choiceKeys.find? (!fields.contains ·) with
    | some bad =>
      -- Whatever the checks before it say, the last one fails.
      simp only [ht, hfind, bind, Except.bind] at h
      split at h <;> repeat' split at h
      all_goals cases h
    | none => simpa using List.find?_eq_none.1 hfind field hfield

end Descriptor

namespace Plan

variable (plan : Plan)

/-- A lookup is one of a table. -/
def Issues (l : Lookup) : Prop :=
  ∃ d ∈ plan.descriptors, (∃ t, d.trigger = some t ∧ l.OfTrigger d.key t) ∨
    ∃ t, d.loader = some t ∧ l.OfChoices d.key t

/-- A resolver is ready and goes with a table. -/
structure Fits (r : Resolver) : Prop where
  ready : r.ready = true
  fields : Assoc.keys r.facets = plan.descriptors.map (·.key)
  counters : Assoc.keys r.generations = Assoc.keys plan.generations
  issued : ∀ l ∈ r.inFlight, plan.Issues l

/-- What a resolver comes to from a model: it is made ready, and then takes changes, first loads and
ends of lookups in flight. -/
inductive Reaches (ends : Lookup → Except Fault (Option LookupResult) → Prop) (m : Model) :
    Resolver → Prop where
  | start {r : Resolver} : plan.setUp (plan.start m) = (r, .ok ()) → Reaches ends m r
  | change {r : Resolver} (key : String) (value : Value) (running : Bool) :
    Reaches ends m r → Reaches ends m (plan.change r key value running).1
  | prime {r : Resolver} (running : Bool) :
    Reaches ends m r → Reaches ends m (plan.prime r running).1
  | complete {r : Resolver} {l : Lookup} {answer : Except Fault (Option LookupResult)} :
    Reaches ends m r → l ∈ r.inFlight → ends l answer → Reaches ends m (plan.complete r l answer).1

/-! ## The start -/

/-- A table that is accepted passes all its checks, and the resolver is the one of the start. -/
theorem of_setUp {m : Model} {r : Resolver} (h : plan.setUp (plan.start m) = (r, .ok ())) :
    r = plan.begun m ∧ ∀ d ∈ plan.descriptors,
      d.checkDeclarations (plan.descriptors.map (·.key)) (plan.begun m).model = .ok () := by
  unfold setUp at h
  dsimp only [start] at h
  cases hchecks : plan.descriptors.forM fun d =>
      d.checkDeclarations (plan.descriptors.map (·.key)) (plan.seed m plan.ownedKeys) with
  | error fault =>
    unfold seed at hchecks
    rw [hchecks] at h
    cases h
  | ok =>
    have hall := of_forM_eq_ok hchecks
    unfold seed at hchecks
    rw [hchecks] at h
    exact ⟨(Prod.mk.inj h).1.symm, hall⟩

/-- A table has a counter for every trigger. -/
theorem mem_generations {key : String} {t : Trigger} (h : plan.trigger? key = some t) :
    key ∈ Assoc.keys plan.generations := by
  obtain ⟨d, hfind, ht⟩ := Option.bind_eq_some_iff.1 h
  have hkey : d.key = key := by simpa using List.find?_some hfind
  -- A counter that is there stays there while the other fields are counted.
  have hcount : ∀ (ds : List Descriptor) (counters : Assoc Nat),
      (key ∈ Assoc.keys counters ∨ d ∈ ds) → key ∈ Assoc.keys (ds.foldl (fun counters d =>
        let counters := if d.trigger.isSome then Assoc.put counters d.key 0 else counters
        if d.loader.isSome then Assoc.put counters (loaderName d.key) 0 else counters)
          counters) := by
    intro ds
    induction ds with
    | nil =>
      intro counters hmem
      exact hmem.resolve_right List.not_mem_nil
    | cons e rest ih =>
      intro counters hmem
      refine ih _ ?_
      by_cases hrest : d ∈ rest
      · exact .inr hrest
      · refine .inl ?_
        have hfirst : key ∈ Assoc.keys
            (if e.trigger.isSome then Assoc.put counters e.key 0 else counters) := by
          rcases hmem with hheld | hmem
          · split
            · exact Assoc.mem_keys_put (.inl hheld)
            · exact hheld
          · obtain rfl : d = e := (List.mem_cons.1 hmem).resolve_right hrest
            rw [if_pos (by rw [ht]; rfl)]
            exact Assoc.mem_keys_put (.inr hkey.symm)
        dsimp only
        split
        · exact Assoc.mem_keys_put (.inl hfirst)
        · exact hfirst
  exact hcount plan.descriptors [] (.inr (List.mem_of_find?_eq_some hfind))

/-- At the start a resolver goes with its table. -/
theorem fits_begun (m : Model) : plan.Fits (plan.begun m) where
  ready := rfl
  fields := by
    simp only [begun, Resolver.log, Assoc.keys, List.map_map]
    rfl
  counters := rfl
  issued l hl := absurd hl List.not_mem_nil

namespace Fits

variable {plan : Plan} {r r' : Resolver}

/-- A resolver goes with a table as long as its fields and counters stay and no lookup is added. -/
theorem of_same (h : plan.Fits r) (hready : r'.ready = r.ready)
    (hfields : Assoc.keys r'.facets = Assoc.keys r.facets)
    (hcounters : Assoc.keys r'.generations = Assoc.keys r.generations)
    (hin : ∀ l ∈ r'.inFlight, l ∈ r.inFlight) : plan.Fits r' where
  ready := hready.trans h.ready
  fields := hfields.trans h.fields
  counters := hcounters.trans h.counters
  issued l hl := h.issued l (hin l hl)

/-- Offering choices keeps the fields. -/
theorem offer (h : plan.Fits r) (field : String) (choices : List Choice) :
    plan.Fits (r.offer field choices) :=
  h.of_same rfl (Assoc.keys_adjust r.facets field fun f => { f with choices }) rfl fun _ hl => hl

/-- Offering the choices of several fields keeps the fields. -/
theorem offerAll (h : plan.Fits r) (choices : Assoc (List Choice)) :
    plan.Fits (r.offerAll choices).1 := by
  induction choices generalizing r with
  | nil => exact h
  | cons fc rest ih =>
    obtain ⟨field, offered⟩ := fc
    unfold Resolver.offerAll
    split
    · exact ih (h.offer field offered)
    · exact h

/-- Counting a generation up keeps the counters. -/
theorem supersede (h : plan.Fits r) (name : String) : plan.Fits (r.supersede name) :=
  h.of_same rfl rfl (Assoc.keys_adjust r.generations name (· + 1)) fun _ hl => hl

/-- Announcing a key keeps the fields. -/
theorem propagate (h : plan.Fits r) (key : String) : plan.Fits (plan.propagate r key) := by
  refine h.of_same rfl ?_ rfl fun _ hl => hl
  simp only [Plan.propagate, Plan.refresh, Assoc.keys, List.map_map]
  rfl

/-- Announcing several keys keeps the fields. -/
theorem propagates (h : plan.Fits r) (keys : List String) :
    plan.Fits (keys.foldl plan.propagate r) := by
  induction keys generalizing r with
  | nil => exact h
  | cons key rest ih => exact ih (h.propagate key)

/-- What a resolver goes with does not depend on its model. -/
theorem remodel (h : plan.Fits r) (m : Model) : plan.Fits { r with model := m } :=
  h.of_same rfl rfl rfl fun _ hl => hl

/-- A cascade keeps the fields and counters. -/
theorem runSteps (h : plan.Fits r) (steps : List CascadeStep) :
    plan.Fits (steps.foldl plan.runStep r) := by
  induction steps generalizing r with
  | nil => exact h
  | cons step rest ih =>
    refine ih ?_
    cases step with
    | empty field => exact h.offer field []
    | supersede name => exact h.supersede name
    | reset key => exact (h.remodel _).propagate key

/-- Issuing a lookup of the table keeps the lookups those of the table. -/
theorem reissue (h : plan.Fits r) {name : String} {fetch : Fetch} {compareKey : Option String}
    (hl : plan.Issues (r.newLookup name fetch compareKey)) :
    plan.Fits (r.reissue name fetch compareKey).1 where
  ready := h.ready
  fields := h.fields
  counters := (Assoc.keys_adjust r.generations name (· + 1)).trans h.counters
  issued l hin := by
    rcases List.mem_append.1 hin with hold | hnew
    · exact h.issued l hold
    · rwa [List.mem_singleton.1 hnew]

/-- The lookup of a trigger is one of the table. -/
theorem issues_trigger (r : Resolver) {d : Descriptor} {t : Trigger} (hd : d ∈ plan.descriptors)
    (ht : d.trigger = some t) : plan.Issues (r.newLookup d.key t.fetch (some d.key)) := by
  have hvalue : r.model.get d.key = Snapshot.get r.model.snapshot d.key :=
    (Snapshot.get_snapshot r.model d.key).symm
  exact ⟨d, hd, .inl ⟨t, ht, rfl, rfl, rfl, hvalue⟩⟩

/-- A change keeps a resolver with its table. -/
theorem change (h : plan.Fits r) (key : String) (value : Value) (running : Bool) :
    plan.Fits (plan.change r key value running).1 := by
  have hwritten : plan.Fits (plan.write r key value) := (h.remodel _).propagate key
  rcases plan.change_cases r key value running with
    ⟨fault, hchange⟩ | ⟨-, -, -, hchange⟩ | ⟨t, htrigger, -, -, -, hchange⟩
  · rw [hchange]
    exact h
  · rw [hchange]
    exact hwritten
  · rw [hchange]
    obtain ⟨d, hfind, ht⟩ := Option.bind_eq_some_iff.1 htrigger
    obtain rfl : d.key = key := by simpa using List.find?_some hfind
    exact (hwritten.runSteps _).reissue
      (issues_trigger _ (List.mem_of_find?_eq_some hfind) ht)

/-- A first load keeps a resolver with its table. -/
theorem prime (h : plan.Fits r) (running : Bool) : plan.Fits (plan.prime r running).1 := by
  refine plan.prime_induct ?_ ?_ h running
  · intro r d loader hd hloader hr
    exact hr.reissue ⟨d, hd, .inr ⟨loader, hloader, rfl, rfl, rfl⟩⟩
  · intro r d t _ hd ht _ _ _ hr
    exact hr.reissue (issues_trigger r hd ht)

/-- The end of a lookup keeps a resolver with its table. -/
theorem complete (h : plan.Fits r) (l : Lookup) (answer : Except Fault (Option LookupResult)) :
    plan.Fits (plan.complete r l answer).1 := by
  have hwithout : plan.Fits (r.without l) :=
    h.of_same rfl rfl rfl fun _ hl => (Resolver.mem_without.1 hl).1
  obtain ⟨journal, hdone⟩ := plan.complete_resolver r l answer
  rcases hdone with hdone | ⟨cause, -, hdone⟩ | ⟨result, -, hdone⟩
  · rw [hdone]
    exact hwithout.of_same rfl rfl rfl fun _ hl => hl
  · rw [hdone]
    exact hwithout.of_same rfl rfl rfl fun _ hl => hl
  · have happlied : plan.Fits (plan.apply (r.without l) result).1 := by
      have hoffered := hwithout.offerAll result.choices
      unfold Plan.apply
      split
      · next hfault => rwa [hfault] at hoffered
      · next hok =>
        rw [hok] at hoffered
        exact (hoffered.remodel _).propagates _
    rw [hdone]
    exact happlied.of_same rfl rfl rfl fun _ hl => hl

end Fits

variable {plan : Plan} {ends : Lookup → Except Fault (Option LookupResult) → Prop} {m : Model}
  {r : Resolver}

/-- In every state that it reaches a resolver goes with its table. -/
theorem Reaches.fits (h : plan.Reaches ends m r) : plan.Fits r := by
  induction h with
  | start hstart =>
    rw [(plan.of_setUp hstart).1]
    exact plan.fits_begun m
  | change key value running _ ih => exact ih.change key value running
  | prime running _ ih => exact ih.prime running
  | complete _ _ _ ih => exact ih.complete _ _

/-- A table from which some state is reached passes all its checks. -/
theorem Reaches.checked (h : plan.Reaches ends m r) : ∀ d ∈ plan.descriptors,
    d.checkDeclarations (plan.descriptors.map (·.key)) (plan.begun m).model = .ok () := by
  induction h with
  | start hstart => exact (plan.of_setUp hstart).2
  | change key value running _ ih => exact ih
  | prime running _ ih => exact ih
  | complete _ _ _ ih => exact ih

/-- In a state that is reached, a field that the table has is offered choices. -/
theorem Fits.choices_isSome (h : plan.Fits r) {field : String}
    (hfield : field ∈ plan.descriptors.map (·.key)) : ∃ choices, r.choices? field = some choices := by
  have hheld : (Assoc.valueOf? r.facets field).isSome = true := by
    rw [Assoc.isSome_valueOf?, h.fields]
    exact hfield
  obtain ⟨f, hf⟩ := Option.isSome_iff_exists.1 hheld
  exact ⟨f.choices, congrArg (Option.map Facet.choices) hf⟩

/-- In a state that is reached, a trigger of the table has a counter. -/
theorem Fits.generation_isSome (h : plan.Fits r) {key : String} {t : Trigger}
    (ht : plan.trigger? key = some t) : ∃ n, r.generation? key = some n := by
  have hheld : (Assoc.valueOf? r.generations key).isSome = true := by
    rw [Assoc.isSome_valueOf?, h.counters]
    exact plan.mem_generations ht
  exact Option.isSome_iff_exists.1 hheld

end Plan

end SyncForm
