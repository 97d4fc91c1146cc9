import Mathlib.Data.List.Nodup
import SyncForm.Proofs.Validation
import SyncForm.Proofs.Wanted

/-!
# Lookups that fill lists of choices

Each lookup of a first load brings the choices of one field. `Plan.complete_brings` says what the
end of such a lookup does, and `Form.endAll_spec` what the ends of several do, in whatever order
they end and however each of them ends: the choices that they bring are offered, and nothing else is
touched (`Form.Ends`).
-/

namespace SyncForm

/-- The value of a key and where it comes from. -/
def Model.shown? (m : Model) (key : String) : Option (Value × Source) :=
  (m.find? key).map fun e => (e.value, e.source)

/-- An outcome reports what a lookup for choices came to: they are offered, or those before are
left. -/
def LookupOutcome.Reports (o : LookupOutcome) (before after : Option (List Choice)) :
    Except Fault (Option (List Choice)) → Prop
  | .ok (some choices) => o.status = .applied ∧ after = some choices
  | .ok none => o.status = .skipped ∧ after = before
  | .error _ => o.status = .failed ∧ after = before

/-- What reports what a lookup came to does not report that it was discarded. -/
theorem LookupOutcome.Reports.not_discarded {o : LookupOutcome} {before after : Option (List Choice)}
    {brought : Except Fault (Option (List Choice))} (h : o.Reports before after brought) :
    o.status ≠ .discarded := by
  intro hdiscarded
  rcases brought with cause | choices?
  · cases hdiscarded.symm.trans h.1
  · cases choices? with
    | none => cases hdiscarded.symm.trans h.1
    | some choices => cases hdiscarded.symm.trans h.1

/-- A resolver differs from another one in the choices of some fields at most, the lookups in flight,
the marks of failures and the journal apart. -/
structure Resolver.Fills (r r' : Resolver) (fields : String → Prop) : Prop where
  generations : r'.generations = r.generations
  ready : r'.ready = r.ready
  entries : ∀ key, r'.model.shown? key = r.model.shown? key
  weights : ∀ field, r'.weight? field = r.weight? field
  choices : ∀ field, ¬ fields field → r'.choices? field = r.choices? field

namespace Resolver.Fills

variable {r r' r'' : Resolver} {fields others : String → Prop}

/-- A resolver differs in nothing from itself. -/
theorem refl (r : Resolver) : r.Fills r fields :=
  ⟨rfl, rfl, fun _ => rfl, fun _ => rfl, fun _ _ => rfl⟩

/-- What differs in some fields and then in others differs in these and those. -/
theorem trans (h : r.Fills r' fields) (h' : r'.Fills r'' others) :
    r.Fills r'' fun field => fields field ∨ others field where
  generations := h'.generations.trans h.generations
  ready := h'.ready.trans h.ready
  entries key := (h'.entries key).trans (h.entries key)
  weights field := (h'.weights field).trans (h.weights field)
  choices field hfield := (h'.choices field fun ho => hfield (.inr ho)).trans
    (h.choices field fun hf => hfield (.inl hf))

/-- What differs in some fields differs in more of them. -/
theorem mono (h : r.Fills r' fields) (hsub : ∀ field, fields field → others field) :
    r.Fills r' others :=
  { h with choices := fun field hfield => h.choices field fun hf => hfield (hsub field hf) }

/-- The values of the model are left. -/
theorem value?_eq (h : r.Fills r' fields) (key : String) :
    r'.model.value? key = r.model.value? key := by
  have hvalue : ∀ m : Model, m.value? key = (m.shown? key).map (·.1) := by
    intro m
    simp [Model.value?, Model.shown?, Function.comp_def]
  rw [hvalue, hvalue, h.entries]

/-- A form given other choices is given the same verdict. -/
theorem resembles (h : r.Fills r' fields) : r'.Resembles r :=
  ⟨h.ready, h.value?_eq, h.weights⟩

/-- The lookups that count still do. -/
theorem isStale_eq (h : r.Fills r' fields) (l : Lookup) : r'.isStale l = r.isStale l := by
  unfold isStale
  rw [h.generations, h.resembles.get]

/-- The fields that have a state still do. -/
theorem holds_eq (h : r.Fills r' fields) (field : String) :
    Assoc.holds r'.facets field = Assoc.holds r.facets field := by
  have hholds : ∀ s : Resolver, Assoc.holds s.facets field = (s.weight? field).isSome := by
    intro s
    rw [weight?, Option.isSome_map]
    rfl
  rw [hholds, hholds, h.weights]

end Resolver.Fills

/-- Offering choices leaves the weights. -/
theorem Resolver.weight?_offer (r : Resolver) (field : String) (choices : List Choice)
    (other : String) : (r.offer field choices).weight? other = r.weight? other := by
  simp only [weight?, offer, Assoc.valueOf?_adjust]
  split
  · rw [Option.map_map]
    rfl
  · rfl

/-- A failure leaves the values and where they come from. -/
theorem Plan.shown?_fail (r : Resolver) (l : Lookup) (cause : Fault) (key : String) :
    (fail r l cause).1.model.shown? key = r.model.shown? key := by
  obtain ⟨f, hf, hfind⟩ := find?_fail r l cause key
  simp [Model.shown?, hfind, Function.comp_def, hf]

/-- The end of a lookup that counts and brings the choices of a field. -/
theorem Plan.complete_brings (plan : Plan) {r : Resolver} {l : Lookup} {field : String}
    (hcounts : r.isStale l = false) (hfield : Assoc.holds r.facets field = true)
    {answer : Except Fault (Option LookupResult)} {brought : Except Fault (Option (List Choice))}
    (hanswer : answer = brought.map (Option.map fun choices => { choices := [(field, choices)] })) :
    ∃ outcome, (plan.complete r l answer).2 = .ok outcome ∧
      outcome.trigger = l.ticket.trigger ∧
      outcome.Reports (r.choices? field) ((plan.complete r l answer).1.choices? field) brought ∧
      r.Fills (plan.complete r l answer).1 (· = field) ∧
      (plan.complete r l answer).1.inFlight = (r.without l).inFlight := by
  subst hanswer
  cases brought with
  | error cause =>
    have hdone := plan.complete_of_error hcounts cause
    have hfills : r.Fills (fail (r.without l) l cause).1 (· = field) :=
      ⟨rfl, rfl, shown?_fail (r.without l) l cause, fun _ => rfl, fun _ _ => rfl⟩
    rw [Except.map, hdone]
    exact ⟨_, rfl, rfl, ⟨rfl, rfl⟩, hfills, rfl⟩
  | ok choices? =>
    cases choices? with
    | none =>
      have hdone := plan.complete_of_none hcounts
      rw [Except.map, Option.map_none, hdone]
      exact ⟨_, rfl, rfl, ⟨rfl, rfl⟩, ⟨rfl, rfl, fun _ => rfl, fun _ => rfl, fun _ _ => rfl⟩, rfl⟩
    | some choices =>
      have happly := plan.apply_choices (r := r.without l) hfield choices
      have hdone := plan.complete_of_some hcounts happly
      have hchoices := (r.without l).choices?_offer field choices
      have hoffered : ((r.without l).offer field choices).choices? field = some choices := by
        obtain ⟨facet, hfacet⟩ := Option.isSome_iff_exists.1 hfield
        rw [hchoices, if_pos rfl]
        exact congrArg (Option.map fun _ => choices) (congrArg (Option.map (·.choices)) hfacet)
      have hfills : r.Fills ((r.without l).offer field choices) (· = field) :=
        { generations := rfl
          ready := rfl
          entries := fun _ => rfl
          weights := (r.without l).weight?_offer field choices
          choices := fun other hother => (hchoices other).trans (if_neg (Ne.symm hother)) }
      rw [Except.map, Option.map_some, hdone]
      exact ⟨_, rfl, rfl, ⟨rfl, hoffered⟩, { hfills with }, rfl⟩

/-- Completes lookups in flight one after the other, each by its number, and lists how they ended. A
number of no lookup in flight is passed over. -/
def Form.endAll (f : Form) :
    List (Nat × Ending) → Form × List (Nat × Except Fault LookupOutcome)
  | [] => (f, [])
  | (number, ending) :: rest =>
    match f.resolver.lookup? number with
    | none => f.endAll rest
    | some l =>
      let (f, outcome) := f.complete l (ending.answer l)
      let (f, ended) := f.endAll rest
      (f, (number, outcome) :: ended)

/-- The lookups for the choices of different rungs have different names. -/
theorem Rung.filler_inj {side side' : Side} {rung rung' : Rung}
    (h : rung.filler side = rung'.filler side') : side = side' ∧ rung = rung' := by
  revert h
  cases side <;> cases side' <;> cases rung <;> cases rung' <;> decide

/-- A lookup serves one rung at most. -/
theorem Lookup.Serves.rung_inj {l : Lookup} {disabled : List String} {m : Model}
    {p p' : Side × Rung} (h : l.Serves (p.2.request disabled p.1) m)
    (h' : l.Serves (p'.2.request disabled p'.1) m) : p' = p := by
  obtain ⟨hside, hrung⟩ := Rung.filler_inj (h'.trigger.symm.trans h.trigger)
  exact Prod.ext hside hrung

/-- The lookups in flight bring the choices that are wanted on a model, and they count. -/
structure Resolver.Filling (disabled : List String) (m : Model) (r : Resolver) : Prop where
  offers : ∀ side rung, Assoc.holds r.facets (Rung.key rung side) = true
  numbers : (r.inFlight.map (·.ticket.number)).Nodup
  names : (r.inFlight.map (·.ticket.trigger)).Nodup
  serves : ∀ l ∈ r.inFlight, ∃ p ∈ Template.wanted m, l.Serves (p.2.request disabled p.1) m
  counts : ∀ l ∈ r.inFlight, r.isStale l = false

namespace Resolver.Filling

variable {disabled : List String} {m : Model} {r r' : Resolver}

/-- A lookup in flight is found by its number. -/
theorem lookup?_eq (h : r.Filling disabled m) {l : Lookup} (hl : l ∈ r.inFlight) :
    r.lookup? l.ticket.number = some l := by
  cases hfind : r.lookup? l.ticket.number with
  | none =>
    have hnone := List.find?_eq_none.1 hfind l hl
    simp at hnone
  | some l' =>
    obtain ⟨hl', hnumber⟩ := lookup?_eq_some hfind
    rw [List.inj_on_of_nodup_map h.numbers hl' hl hnumber]

/-- The lookups that serve one field are one lookup. -/
theorem eq_of_key (h : r.Filling disabled m) {l l' : Lookup} (hl : l ∈ r.inFlight)
    (hl' : l' ∈ r.inFlight) {p p' : Side × Rung} (hserves : l.Serves (p.2.request disabled p.1) m)
    (hserves' : l'.Serves (p'.2.request disabled p'.1) m)
    (hkey : p'.2.key p'.1 = p.2.key p.1) : l' = l := by
  obtain ⟨hside, hrung⟩ := Template.key_inj.1 hkey
  refine List.inj_on_of_nodup_map h.names hl' hl ?_
  rw [hserves'.trigger, hserves.trigger, hside, hrung]

/-- Where some of the lookups have ended the others are left to end. -/
theorem step (h : r.Filling disabled m) {fields : String → Prop} (hfills : r.Fills r' fields)
    (hin : r'.inFlight.Sublist r.inFlight) : r'.Filling disabled m where
  offers side rung := (hfills.holds_eq _).trans (h.offers side rung)
  numbers := h.numbers.sublist (hin.map _)
  names := h.names.sublist (hin.map _)
  serves l hl := h.serves l (hin.subset hl)
  counts l hl := (hfills.isStale_eq l).trans (h.counts l (hin.subset hl))

end Resolver.Filling

/-- What some lookups that have ended served. -/
def Template.Served (disabled : List String) (m : Model) (r : Resolver) (numbers : List Nat)
    (field : String) : Prop :=
  ∃ l ∈ r.inFlight, l.ticket.number ∈ numbers ∧
    ∃ p ∈ wanted m, l.Serves (p.2.request disabled p.1) m ∧ p.2.key p.1 = field

namespace Form

variable {disabled : List String} {m : Model}

/-- What the ends of some lookups do, in whatever order and however they end: the choices that they
bring are offered, and nothing else is touched. -/
structure Ends (disabled : List String) (m : Model) (f : Form) (ends : List (Nat × Ending))
    (outcome : Nat → LookupOutcome) (g : Form) : Prop where
  plan : g.plan = f.plan
  fills : f.resolver.Fills g.resolver
    (Template.Served disabled m f.resolver (ends.map (·.1)))
  inFlight : g.resolver.inFlight =
    f.resolver.inFlight.filter fun l => !(ends.map (·.1)).contains l.ticket.number
  reports : ∀ l ∈ f.resolver.inFlight, ∀ ending, (l.ticket.number, ending) ∈ ends →
    ∀ p ∈ Template.wanted m, l.Serves (p.2.request disabled p.1) m →
      (outcome l.ticket.number).trigger = l.ticket.trigger ∧
      (outcome l.ticket.number).Reports (f.resolver.choices? (p.2.key p.1))
        (g.resolver.choices? (p.2.key p.1)) (p.2.brought disabled m p.1 ending)

/-- Nothing ends where no end is given. -/
theorem Ends.refl (f : Form) (outcome : Nat → LookupOutcome) :
    f.Ends disabled m [] outcome f where
  plan := rfl
  fills := .refl _
  inFlight := by simp
  reports _ _ _ hend := absurd hend List.not_mem_nil

/-- One lookup ends, then others do. -/
theorem Ends.cons {f f' g : Form} (h : f.resolver.Filling disabled m) {l : Lookup}
    (hl : l ∈ f.resolver.inFlight) {p : Side × Rung} (hp : p ∈ Template.wanted m)
    (hserves : l.Serves (p.2.request disabled p.1) m) {ending : Ending} {o : LookupOutcome}
    (hplan : f'.plan = f.plan) (htrigger : o.trigger = l.ticket.trigger)
    (hreports : o.Reports (f.resolver.choices? (p.2.key p.1)) (f'.resolver.choices? (p.2.key p.1))
      (p.2.brought disabled m p.1 ending))
    (hfills : f.resolver.Fills f'.resolver (· = p.2.key p.1))
    (hin : f'.resolver.inFlight = (f.resolver.without l).inFlight)
    {rest : List (Nat × Ending)} (hnodup : l.ticket.number ∉ rest.map (·.1))
    {outcome : Nat → LookupOutcome} (hends : f'.Ends disabled m rest outcome g) :
    f.Ends disabled m ((l.ticket.number, ending) :: rest)
      (Function.update outcome l.ticket.number o) g := by
  have hsub : ∀ l' ∈ f'.resolver.inFlight,
      l' ∈ f.resolver.inFlight ∧ l'.ticket.number ≠ l.ticket.number := by
    intro l' hl'
    rw [hin] at hl'
    exact Resolver.mem_without.1 hl'
  exact
    { plan := hends.plan.trans hplan
      fills := by
        refine (hfills.trans hends.fills).mono fun field hfield => ?_
        rcases hfield with rfl | ⟨l', hl', hnumber, hp'⟩
        · exact ⟨l, hl, .head _, p, hp, hserves, rfl⟩
        · exact ⟨l', (hsub l' hl').1, .tail _ hnumber, hp'⟩
      inFlight := by
        rw [hends.inFlight, hin, Resolver.without, List.filter_filter]
        refine List.filter_congr fun l' _ => ?_
        simp only [List.map_cons, List.contains_cons, Bool.not_or, bne, Bool.and_comm]
      reports := by
        intro l' hl' ending' hend p' hp' hserves'
        by_cases hnumber : l'.ticket.number = l.ticket.number
        · obtain rfl : l' = l := List.inj_on_of_nodup_map h.numbers hl' hl hnumber
          obtain rfl := hserves.rung_inj hserves'
          obtain rfl : ending' = ending := by
            rcases List.mem_cons.1 hend with heq | hlater
            · exact congrArg Prod.snd heq
            · exact absurd (List.mem_map_of_mem hlater) hnodup
          have hleft : g.resolver.choices? (p'.2.key p'.1) =
              f'.resolver.choices? (p'.2.key p'.1) := by
            refine hends.fills.choices _ ?_
            rintro ⟨l'', hl'', -, p'', -, hserves'', hkey⟩
            obtain ⟨hin'', hne⟩ := hsub l'' hl''
            exact hne (congrArg (·.ticket.number) (h.eq_of_key hl hin'' hserves hserves'' hkey))
          rw [Function.update_self, hleft]
          exact ⟨htrigger, hreports⟩
        · have hin' : l' ∈ f'.resolver.inFlight := by
            rw [hin]
            exact Resolver.mem_without.2 ⟨hl', hnumber⟩
          have hend' : (l'.ticket.number, ending') ∈ rest := by
            rcases List.mem_cons.1 hend with heq | hlater
            · exact absurd (congrArg Prod.fst heq) hnumber
            · exact hlater
          have hbefore : f'.resolver.choices? (p'.2.key p'.1) =
              f.resolver.choices? (p'.2.key p'.1) := by
            refine hfills.choices _ fun hkey => hnumber ?_
            exact congrArg (·.ticket.number) (h.eq_of_key hl hl' hserves hserves' hkey)
          rw [Function.update_of_ne hnumber, ← hbefore]
          exact hends.reports l' hin' ending' hend' p' hp' hserves' }

/-- Lookups that bring choices end with an outcome each, in whatever order and however they end. -/
theorem endAll_spec {f : Form} (h : f.resolver.Filling disabled m) (ends : List (Nat × Ending))
    (hnodup : (ends.map (·.1)).Nodup)
    (hin : ∀ e ∈ ends, ∃ l ∈ f.resolver.inFlight, l.ticket.number = e.1) :
    ∃ outcome : Nat → LookupOutcome,
      (f.endAll ends).2 = ends.map (fun e => (e.1, .ok (outcome e.1))) ∧
      f.Ends disabled m ends outcome (f.endAll ends).1 := by
  induction ends generalizing f with
  | nil =>
    let nothing : LookupOutcome := { trigger := "", value := .null, status := .skipped }
    exact ⟨fun _ => nothing, rfl, .refl f _⟩
  | cons e rest ih =>
    obtain ⟨number, ending⟩ := e
    obtain ⟨l, hl, rfl⟩ := hin _ (.head _)
    obtain ⟨p, hp, hserves⟩ := h.serves l hl
    obtain ⟨hnot, hnodup⟩ := List.nodup_cons.1 hnodup
    have hwanted : p.2.isWanted m p.1 = true := (List.mem_filter.1 hp).2
    obtain ⟨o, hok, htrigger, hreports, hfills, hleft⟩ := f.plan.complete_brings (h.counts l hl)
      (h.offers p.1 p.2) (hserves.answer_eq hwanted ending)
    have hplan : (f.complete l (ending.answer l)).1.plan = f.plan := rfl
    have hstep : (f.complete l (ending.answer l)).1.resolver.Filling disabled m :=
      h.step hfills (hleft ▸ List.filter_sublist)
    obtain ⟨outcome, hended, hends⟩ := ih hstep hnodup fun e he => by
      obtain ⟨l', hl', hnumber⟩ := hin e (.tail _ he)
      refine ⟨l', hleft.symm ▸ Resolver.mem_without.2 ⟨hl', fun heq => hnot ?_⟩, hnumber⟩
      exact List.mem_map.2 ⟨e, he, hnumber.symm.trans heq⟩
    have hcons : f.endAll ((l.ticket.number, ending) :: rest) =
        (((f.complete l (ending.answer l)).1.endAll rest).1,
          (l.ticket.number, .ok o) :: ((f.complete l (ending.answer l)).1.endAll rest).2) := by
      simp only [endAll, h.lookup?_eq hl]
      exact congrArg (fun result => (_, (l.ticket.number, result) :: _)) hok
    rw [hcons, hended]
    refine ⟨Function.update outcome l.ticket.number o, ?_,
      .cons h hl hp hserves hplan htrigger hreports hfills hleft hnot hends⟩
    rw [List.map_cons, Function.update_self]
    refine congrArg _ (List.map_congr_left fun e he => ?_)
    rw [Function.update_of_ne fun heq => hnot (List.mem_map.2 ⟨e, he, heq⟩)]

end Form

end SyncForm
