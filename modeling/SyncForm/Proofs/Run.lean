import SyncForm.Proofs.Effect

/-!
# Runs of a resolver

A run is a list of steps in the order in which they are taken: changes by the user, first loads, and
completions of lookups in flight. A completion names its lookup by number and says how it ended, so
any interleaving of changes and completions is a list of steps, and a catalog may answer one question
differently each time it is asked.

`Plan.change_cases`, `Plan.prime_induct` and the `complete_…` lemmas say once what each kind of step
can do, and `Plan.take_cases` what any step can do.
-/

namespace SyncForm

/-- How a lookup comes to its end: a catalog answers it, or it is given up. -/
inductive Ending where
  | answered (catalog : Catalog)
  | failed (fault : Fault)

/-- What the fetch of a lookup comes to. -/
def Ending.answer (ending : Ending) (l : Lookup) : Except Fault (Option LookupResult) :=
  match ending with
  | answered catalog => l.fetch.run l.snapshot catalog
  | failed fault => .error fault

/-- A step of a run. `running` says whether there is a loop that runs lookups. -/
inductive Step where
  | change (key : String) (value : Value) (running : Bool)
  | prime (running : Bool)
  | complete (number : Nat) (ending : Ending)

namespace Resolver

/-- The lookup in flight of a given number. -/
def lookup? (r : Resolver) (number : Nat) : Option Lookup :=
  r.inFlight.find? (·.ticket.number == number)

/-- The question that a step puts to a catalog, with the catalog that answers it. -/
def asks? (r : Resolver) : Step → Option (Query × Catalog)
  | .complete number (.answered catalog) =>
    (r.lookup? number).bind fun l => (l.fetch.query? l.snapshot).map fun query => (query, catalog)
  | _ => none

/-- Issues a lookup that supersedes those of its name. -/
def reissue (r : Resolver) (name : String) (fetch : Fetch) (compareKey : Option String) :
    Resolver × Ticket :=
  (r.supersede name).issue name fetch compareKey

/-- The lookup that is issued so. -/
def newLookup (r : Resolver) (name : String) (fetch : Fetch) (compareKey : Option String) :
    Lookup :=
  { ticket := (r.reissue name fetch compareKey).2, fetch, snapshot := r.model.snapshot
    compareKey }

/-- An issued lookup comes last. -/
theorem inFlight_reissue (r : Resolver) (name : String) (fetch : Fetch)
    (compareKey : Option String) :
    (r.reissue name fetch compareKey).1.inFlight =
      r.inFlight ++ [r.newLookup name fetch compareKey] :=
  rfl

/-- Issuing a lookup moves its generation on. -/
theorem generation?_reissue (r : Resolver) (name : String) (fetch : Fetch)
    (compareKey : Option String) (other : String) :
    (r.reissue name fetch compareKey).1.generation? other =
      (r.generation? other).map (· + if name = other then 1 else 0) := by
  rw [show (r.reissue name fetch compareKey).1.generation? other =
    (r.supersede name).generation? other from rfl, generation?_supersede]
  split <;> simp

/-- An issued lookup has the generation that it moves its name to. -/
theorem generation_newLookup (r : Resolver) (name : String) (fetch : Fetch)
    (compareKey : Option String) {n : Nat} (h : r.generation? name = some n) :
    (r.newLookup name fetch compareKey).ticket.generation = n + 1 := by
  rw [show (r.newLookup name fetch compareKey).ticket.generation =
    ((r.supersede name).generation? name).getD 0 from rfl, generation?_supersede]
  simp [h]

/-- A lookup found by number is in flight and has that number. -/
theorem lookup?_eq_some {r : Resolver} {number : Nat} {l : Lookup}
    (h : r.lookup? number = some l) : l ∈ r.inFlight ∧ l.ticket.number = number :=
  ⟨List.mem_of_find?_eq_some h, by simpa using List.find?_some h⟩

/-- No lookup is found once it is no longer in flight, and the others stay. -/
theorem mem_without {r : Resolver} {l other : Lookup} :
    other ∈ (r.without l).inFlight ↔
      other ∈ r.inFlight ∧ other.ticket.number ≠ l.ticket.number := by
  simp [without, List.mem_filter]

end Resolver

namespace Plan

variable (plan : Plan)

/-- The resolver after a step. A completion of a lookup that is not in flight changes nothing. -/
def take (r : Resolver) : Step → Resolver
  | .change key value running => (plan.change r key value running).1
  | .prime running => (plan.prime r running).1
  | .complete number ending =>
    match r.lookup? number with
    | some l => (plan.complete r l (ending.answer l)).1
    | none => r

/-- The resolver after a run. -/
def run (r : Resolver) (steps : List Step) : Resolver :=
  steps.foldl plan.take r

/-- A run without steps stays where it is. -/
theorem run_nil (r : Resolver) : plan.run r [] = r :=
  rfl

/-- A run takes its first step and goes on. -/
theorem run_cons (r : Resolver) (step : Step) (rest : List Step) :
    plan.run r (step :: rest) = plan.run (plan.take r step) rest :=
  rfl

/-- The questions that a run puts to its catalogs, each with the catalog that answers it. -/
def asked (r : Resolver) : List Step → List (Query × Catalog)
  | [] => []
  | step :: rest => (r.asks? step).toList ++ asked (plan.take r step) rest

/-! ## Changes -/

/-- The value of a user written and announced. -/
def write (r : Resolver) (key : String) (value : Value) : Resolver :=
  plan.propagate { r with model := r.model.setUser key value } key

/-- A changed trigger: its cascade is run and its lookup issued anew. -/
def rerun (r : Resolver) (key : String) (value : Value) (trigger : Trigger) : Resolver × Ticket :=
  ((plan.cascade key trigger).foldl plan.runStep (plan.write r key value)).reissue key
    trigger.fetch (some key)

/-- Writing a value of the user shows it under its key alone, as far as the form spares the keys. -/
theorem find?_write {other : String} (h : plan.react.Spares other) (r : Resolver) (key : String)
    (value : Value) :
    (plan.write r key value).model.find? other =
      if key = other then
        some (((r.model.find? key).getD { value := .text "" }).setUser value)
      else r.model.find? other := by
  rw [write, plan.find?_propagate h]
  exact Model.find?_write ..

/-- What a key holds after a value of the user was written. -/
theorem value?_write {other : String} (h : plan.react.Spares other) (r : Resolver) (key : String)
    (value : Value) :
    (plan.write r key value).model.value? other =
      if key = other then some value else r.model.value? other := by
  rw [write, plan.value?_propagate h]
  exact Model.value?_setUser ..

/-- Writing a value of the user drops no key. -/
theorem sub_write (h : plan.react.Keeps) (r : Resolver) (key : String) (value : Value) :
    r.model.Sub (plan.write r key value).model := by
  have hwritten : r.model.Sub (r.model.setUser key value) := (Model.Sub.refl _).write key _
  exact hwritten.trans (h key _)

/-- Writing a value of the user leaves the choices of fields without a rule. -/
theorem choices?_write {field : String} (h : plan.RuleFree field) (r : Resolver) (key : String)
    (value : Value) : (plan.write r key value).choices? field = r.choices? field :=
  plan.choices?_propagate h _ key

/-- A changed trigger leaves what its cascade leaves. -/
theorem find?_rerun {other : String} (h : plan.react.Spares other) (r : Resolver) (key : String)
    (value : Value) (trigger : Trigger) :
    (plan.rerun r key value trigger).1.model.find? other =
      if (plan.cascade key trigger).any (·.resets other) then some { value := plan.usual other }
      else if key = other then
        some (((r.model.find? key).getD { value := .text "" }).setUser value)
      else r.model.find? other := by
  rw [← plan.find?_write h, ← plan.find?_runSteps h]
  rfl

/-- What a key holds after a trigger was changed. -/
theorem value?_rerun {other : String} (h : plan.react.Spares other) (r : Resolver) (key : String)
    (value : Value) (trigger : Trigger) :
    (plan.rerun r key value trigger).1.model.value? other =
      if (plan.cascade key trigger).any (·.resets other) then some (plan.usual other)
      else if key = other then some value
      else r.model.value? other := by
  rw [Model.value?, plan.find?_rerun h]
  split
  · rfl
  · split <;> rfl

/-- A changed trigger drops no key. -/
theorem sub_rerun (h : plan.react.Keeps) (r : Resolver) (key : String) (value : Value)
    (trigger : Trigger) : r.model.Sub (plan.rerun r key value trigger).1.model :=
  (plan.sub_write h r key value).trans (plan.sub_runSteps h _ _)

/-- A changed trigger empties the choices that its cascade empties. -/
theorem choices?_rerun {field : String} (h : plan.RuleFree field) (r : Resolver) (key : String)
    (value : Value) (trigger : Trigger) :
    (plan.rerun r key value trigger).1.choices? field =
      (r.choices? field).map fun cs =>
        if (plan.cascade key trigger).any (·.empties field) then [] else cs := by
  rw [← plan.choices?_write h r key value, ← plan.choices?_runSteps h]
  rfl

/-- A changed trigger moves on its own generation and those that its cascade supersedes. -/
theorem generation?_rerun (r : Resolver) (key : String) (value : Value) (trigger : Trigger)
    (name : String) :
    (plan.rerun r key value trigger).1.generation? name =
      (r.generation? name).map (· + ((plan.cascade key trigger).countP (·.supersedes name) +
        if key = name then 1 else 0)) := by
  have hwrite : (plan.write r key value).generation? name = r.generation? name := rfl
  rw [rerun, Resolver.generation?_reissue, plan.generation?_runSteps, hwrite, Option.map_map]
  congr 1
  funext n
  simp only [Function.comp_apply]
  omega

/-- The lookup that a changed trigger issues. -/
def rerunLookup (r : Resolver) (key : String) (value : Value) (trigger : Trigger) : Lookup :=
  ((plan.cascade key trigger).foldl plan.runStep (plan.write r key value)).newLookup key
    trigger.fetch (some key)

/-- A changed trigger issues one lookup, after all others. -/
theorem inFlight_rerun (r : Resolver) (key : String) (value : Value) (trigger : Trigger) :
    (plan.rerun r key value trigger).1.inFlight =
        r.inFlight ++ [plan.rerunLookup r key value trigger] ∧
      (plan.rerun r key value trigger).1.issued = r.issued + 1 ∧
      (plan.rerun r key value trigger).1.ready = r.ready := by
  obtain ⟨h1, h2, h3⟩ :=
    plan.inFlight_runSteps (plan.cascade key trigger) (plan.write r key value)
  refine ⟨?_, congrArg (· + 1) h2, h3⟩
  rw [rerun, Resolver.inFlight_reissue, h1]
  rfl

/-- What a change can do: it is refused and nothing happens, it writes a key that is no trigger, or
it writes a trigger and issues its lookup. -/
theorem change_cases (r : Resolver) (key : String) (value : Value) (running : Bool) :
    (∃ fault, plan.change r key value running = (r, .error fault)) ∨
    (plan.trigger? key = none ∧ r.ready = true ∧ r.model.holds key = true ∧
      plan.change r key value running = (plan.write r key value, .ok none)) ∨
    (∃ trigger, plan.trigger? key = some trigger ∧ running = true ∧ r.ready = true ∧
      r.model.holds key = true ∧ plan.change r key value running =
        ((plan.rerun r key value trigger).1, .ok (some (plan.rerun r key value trigger).2))) := by
  unfold change
  split
  · exact .inl ⟨_, rfl⟩
  · next hready =>
    have hready : r.ready = true := by simpa using hready
    split
    · exact .inl ⟨_, rfl⟩
    · next hheld =>
      have hheld : r.model.holds key = true := by simpa using hheld
      cases htrigger : plan.trigger? key with
      | none => exact .inr (.inl ⟨rfl, hready, hheld, rfl⟩)
      | some trigger =>
        cases running with
        | true => exact .inr (.inr ⟨trigger, rfl, rfl, hready, hheld, rfl⟩)
        | false => exact .inl ⟨_, rfl⟩

/-- A change of a key that is not held is refused. -/
theorem change_of_unheld {r : Resolver} {key : String} (value : Value) (running : Bool)
    (hready : r.ready = true) (hheld : r.model.holds key = false) :
    plan.change r key value running = (r, .error (Resolver.unknownField key)) := by
  unfold change
  rw [if_neg (by simp [hready]), if_pos (by simp [hheld])]

/-- A change of a trigger that is held is accepted while a loop runs. -/
theorem change_of_trigger {r : Resolver} {key : String} {trigger : Trigger} (value : Value)
    (htrigger : plan.trigger? key = some trigger) (hready : r.ready = true)
    (hheld : r.model.holds key = true) :
    plan.change r key value true =
      ((plan.rerun r key value trigger).1, .ok (some (plan.rerun r key value trigger).2)) := by
  unfold change
  rw [if_neg (by simp [hready]), if_neg (by simp [hheld]), htrigger]
  rfl

/-- A change of a key that is held and no trigger is accepted. -/
theorem change_of_plain {r : Resolver} {key : String} (value : Value) (running : Bool)
    (htrigger : plan.trigger? key = none) (hready : r.ready = true)
    (hheld : r.model.holds key = true) :
    plan.change r key value running = (plan.write r key value, .ok none) := by
  unfold change
  rw [if_neg (by simp [hready]), if_neg (by simp [hheld]), htrigger]
  rfl

/-! ## First loads -/

/-- What holds before a first load and is kept by every lookup that it issues holds after it. -/
theorem primeFields_induct {P : Resolver → Prop} {fields : List Descriptor}
    (hloader : ∀ r d loader, d ∈ fields → d.loader = some loader → P r →
      P (r.reissue (loaderName d.key) loader.fetch none).1)
    (htrigger : ∀ r d trigger value, d ∈ fields → d.trigger = some trigger →
      trigger.prime = true → r.model.value? d.key = some value → value.isTrue = true → P r →
      P (r.reissue d.key trigger.fetch (some d.key)).1)
    {r : Resolver} (h : P r) : P (primeFields r fields).1 := by
  induction fields generalizing r with
  | nil => exact h
  | cons d rest ih =>
    have hfirst : P (primeLoader r d).1 := by
      unfold primeLoader
      split
      · exact h
      · next loader hl => exact hloader r d loader (by simp) hl h
    have hsecond : P (primeTrigger (primeLoader r d).1 d).1 := by
      unfold primeTrigger
      split
      · exact hfirst
      · next trigger ht =>
        split
        · next hprime =>
          split
          · exact hfirst
          · next value hv =>
            split
            · next htrue => exact htrigger _ d trigger value (by simp) ht hprime hv htrue hfirst
            · exact hfirst
        · exact hfirst
    have hrest := ih (fun r d loader hd => hloader r d loader (by simp [hd]))
      (fun r d trigger value hd => htrigger r d trigger value (by simp [hd])) hsecond
    rcases hl : primeLoader r d with ⟨r₁, loaded⟩
    rw [hl] at hsecond hrest
    rcases ht : primeTrigger r₁ d with ⟨r₂, fault | triggered⟩
    · simpa only [primeFields, hl, ht] using hsecond
    · rw [ht] at hrest
      simpa only [primeFields, hl, ht] using hrest

/-- What holds before a first load and is kept by every lookup that it issues holds after it. -/
theorem prime_induct {P : Resolver → Prop}
    (hloader : ∀ r d loader, d ∈ plan.descriptors → d.loader = some loader → P r →
      P (r.reissue (loaderName d.key) loader.fetch none).1)
    (htrigger : ∀ r d trigger value, d ∈ plan.descriptors → d.trigger = some trigger →
      trigger.prime = true → r.model.value? d.key = some value → value.isTrue = true → P r →
      P (r.reissue d.key trigger.fetch (some d.key)).1)
    {r : Resolver} (h : P r) (running : Bool) : P (plan.prime r running).1 := by
  unfold prime
  split
  · exact h
  · split
    · exact primeFields_induct hloader htrigger h
    · exact h

/-- A first load leaves the model and the fields. -/
theorem prime_model (r : Resolver) (running : Bool) :
    (plan.prime r running).1.model = r.model ∧ (plan.prime r running).1.facets = r.facets ∧
      (plan.prime r running).1.ready = r.ready :=
  plan.prime_induct (P := fun s => s.model = r.model ∧ s.facets = r.facets ∧ s.ready = r.ready)
    (fun _ _ _ _ _ h => h) (fun _ _ _ _ _ _ _ _ _ h => h) ⟨rfl, rfl, rfl⟩ running

/-! ## Completions -/

/-- A lookup that no longer counts is discarded, and nothing else happens. -/
theorem complete_of_stale {r : Resolver} {l : Lookup} (h : r.isStale l = true)
    (answer : Except Fault (Option LookupResult)) :
    ∃ event, plan.complete r l answer = ((r.without l).log event,
      .ok { trigger := l.ticket.trigger, value := l.ticket.value, status := .discarded }) := by
  have hstale : (r.without l).isStale l = true := h
  unfold complete
  cases answer with
  | error cause => exact ⟨_, if_pos hstale⟩
  | ok result => exact ⟨_, if_pos hstale⟩

/-- A lookup that counts and fails marks its field. -/
theorem complete_of_error {r : Resolver} {l : Lookup} (h : r.isStale l = false) (cause : Fault) :
    plan.complete r l (.error cause) =
      ((fail (r.without l) l cause).1, .ok (fail (r.without l) l cause).2) := by
  have hfresh : ¬ (r.without l).isStale l = true := Bool.eq_false_iff.1 h
  unfold complete
  exact if_neg hfresh

/-- A lookup that counts and has nothing to fetch is skipped. -/
theorem complete_of_none {r : Resolver} {l : Lookup} (h : r.isStale l = false) :
    plan.complete r l (.ok none) = (r.without l,
      .ok { trigger := l.ticket.trigger, value := l.ticket.value, status := .skipped }) := by
  have hfresh : ¬ (r.without l).isStale l = true := Bool.eq_false_iff.1 h
  unfold complete
  exact if_neg hfresh

/-- A lookup that counts and has a result ends as writing the result back does. -/
theorem complete_of_result {r : Resolver} {l : Lookup} (h : r.isStale l = false)
    (result : LookupResult) :
    plan.complete r l (.ok (some result)) =
      match plan.apply (r.without l) result with
      | (r', .error fault) => (r', .error fault)
      | (r', .ok ()) => (r'.log (.applied l.ticket.trigger l.ticket.value),
          .ok { trigger := l.ticket.trigger, value := l.ticket.value, status := .applied }) := by
  have hfresh : ¬ (r.without l).isStale l = true := Bool.eq_false_iff.1 h
  unfold complete
  exact if_neg hfresh

/-- A lookup that counts and whose result can be written back is applied. -/
theorem complete_of_some {r r' : Resolver} {l : Lookup} {result : LookupResult}
    (h : r.isStale l = false) (happly : plan.apply (r.without l) result = (r', .ok ())) :
    plan.complete r l (.ok (some result)) =
      (r'.log (.applied l.ticket.trigger l.ticket.value),
        .ok { trigger := l.ticket.trigger, value := l.ticket.value, status := .applied }) := by
  rw [plan.complete_of_result h, happly]

/-- A lookup that counts and whose result cannot be written back fails where this fails. -/
theorem complete_of_refused {r r' : Resolver} {l : Lookup} {result : LookupResult} {fault : Fault}
    (h : r.isStale l = false) (happly : plan.apply (r.without l) result = (r', .error fault)) :
    plan.complete r l (.ok (some result)) = (r', .error fault) := by
  rw [plan.complete_of_result h, happly]

/-- What the end of a lookup can do to a resolver, the journal apart: nothing but taking the lookup out
of flight, marking the field of a failure, or writing a result back as far as that goes. -/
theorem complete_resolver (r : Resolver) (l : Lookup)
    (answer : Except Fault (Option LookupResult)) :
    ∃ journal, (plan.complete r l answer).1 = { r.without l with journal } ∨
      (∃ cause, answer = .error cause ∧
        (plan.complete r l answer).1 = { (fail (r.without l) l cause).1 with journal }) ∨
      ∃ result, answer = .ok (some result) ∧
        (plan.complete r l answer).1 = { (plan.apply (r.without l) result).1 with journal } := by
  cases hstale : r.isStale l with
  | true =>
    obtain ⟨event, hdone⟩ := plan.complete_of_stale hstale answer
    exact ⟨_, .inl (by rw [hdone]; rfl)⟩
  | false =>
    cases answer with
    | error cause =>
      exact ⟨_, .inr (.inl ⟨cause, rfl, by rw [plan.complete_of_error hstale]⟩)⟩
    | ok result? =>
      cases result? with
      | none => exact ⟨_, .inl (by rw [plan.complete_of_none hstale])⟩
      | some result =>
        rcases happly : plan.apply (r.without l) result with ⟨r', fault | ⟨⟩⟩
        · refine ⟨r'.journal, .inr (.inr ⟨result, rfl, ?_⟩)⟩
          rw [plan.complete_of_refused hstale happly, happly]
        · refine ⟨(r'.log (.applied l.ticket.trigger l.ticket.value)).journal,
            .inr (.inr ⟨result, rfl, ?_⟩)⟩
          rw [plan.complete_of_some hstale happly, happly]
          rfl

/-- A failure marks one entry of the model. -/
theorem fail_model (r : Resolver) (l : Lookup) (cause : Fault) :
    ∃ owner mark, (fail r l cause).1.model =
      r.model.adjust owner fun e => { e with lookupError := some mark } :=
  ⟨_, _, rfl⟩

/-- A failure leaves the values and the sources of the model. -/
theorem find?_fail (r : Resolver) (l : Lookup) (cause : Fault) (key : String) :
    ∃ f : Entry → Entry, (∀ e, (f e).value = e.value ∧ (f e).source = e.source) ∧
      (fail r l cause).1.model.find? key = (r.model.find? key).map f := by
  obtain ⟨owner, mark, hmodel⟩ := fail_model r l cause
  rw [hmodel, Model.find?_adjust]
  by_cases howner : owner = key
  · exact ⟨fun e => { e with lookupError := some mark }, fun _ => ⟨rfl, rfl⟩, if_pos howner⟩
  · exact ⟨id, fun _ => ⟨rfl, rfl⟩, (if_neg howner).trans (Option.map_id' ..).symm⟩

/-- A failure leaves the values of the model. -/
theorem value?_fail (r : Resolver) (l : Lookup) (cause : Fault) (key : String) :
    (fail r l cause).1.model.value? key = r.model.value? key := by
  obtain ⟨owner, mark, hmodel⟩ := fail_model r l cause
  rw [hmodel]
  exact r.model.value?_adjust owner (fun e => { e with lookupError := some mark }) (fun _ => rfl) key

/-- A result that is one list of choices is offered by its field. -/
theorem apply_choices {r : Resolver} {field : String} (hfield : Assoc.holds r.facets field = true)
    (choices : List Choice) :
    plan.apply r { choices := [(field, choices)] } = (r.offer field choices, .ok ()) := by
  simp [apply, Resolver.offerAll, hfield, Assoc.keys]

/-! ## Steps -/

/-- What a step takes a resolver to: a change is refused, written or issues a lookup anew, a first
load issues lookups, and a completion ends the lookup of its number if that is in flight. -/
inductive Takes (r : Resolver) : Step → Resolver → Prop
  | refused (key : String) (value : Value) (running : Bool) :
      Takes r (.change key value running) r
  | written (key : String) (value : Value) (running : Bool) (hplain : plan.trigger? key = none)
      (hheld : r.model.holds key = true) :
      Takes r (.change key value running) (plan.write r key value)
  | rerun (key : String) (value : Value) (trigger : Trigger)
      (htrigger : plan.trigger? key = some trigger) (hheld : r.model.holds key = true) :
      Takes r (.change key value true) (plan.rerun r key value trigger).1
  | primed (running : Bool) : Takes r (.prime running) (plan.prime r running).1
  | ended (number : Nat) (ending : Ending) (l : Lookup) (hl : r.lookup? number = some l) :
      Takes r (.complete number ending) (plan.complete r l (ending.answer l)).1
  | absent (number : Nat) (ending : Ending) (hnone : r.lookup? number = none) :
      Takes r (.complete number ending) r

/-- A step takes a resolver to one that it can take it to. -/
theorem take_cases (r : Resolver) (step : Step) : plan.Takes r step (plan.take r step) := by
  cases step with
  | change key value running =>
    rw [take]
    rcases plan.change_cases r key value running with
      ⟨fault, hchange⟩ | ⟨hplain, -, hheld, hchange⟩ | ⟨trigger, htrigger, rfl, -, hheld, hchange⟩
    · rw [hchange]
      exact .refused key value running
    · rw [hchange]
      exact .written key value running hplain hheld
    · rw [hchange]
      exact .rerun key value trigger htrigger hheld
  | prime running => exact .primed running
  | complete number ending =>
    rw [take]
    cases hl : r.lookup? number with
    | none => exact .absent number ending hl
    | some l => exact .ended number ending l hl

end Plan

end SyncForm
