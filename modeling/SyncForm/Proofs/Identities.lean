import Mathlib.Data.List.Pairwise
import SyncForm.Proofs.Cascading
import SyncForm.Proofs.Derived
import SyncForm.Proofs.Failures
import SyncForm.Proofs.Writeback

/-!
# The names of lookups

The lookup of a trigger has the key of its field for a name, a loader that key with a suffix, and
all of them count in one table. Whatever the keys are, the field of a loader is recovered from its
name (`loadedField_of_loader`), so that no two loaders share a name and a failed one marks its own
field. The name of a loader may be the key of a trigger, though: each lookup has a counter of its
own just if a table has no such pair (`Plan.nodup_lookups_iff`). Apart from such a trigger, the
lookup of a loader that counts goes on to count until a first load issues the loader anew
(`Plan.isStale_run`); `Plan.names_collide` is a table where a change of another field ends that.
-/

namespace SyncForm

/-! ## Names of loaders -/

/-- Loaders of different fields have different names. -/
theorem loaderName_injective : Function.Injective loaderName :=
  Function.LeftInverse.injective loadedField_of_loader

/-- A loader is not called like its own field. -/
theorem loaderName_ne (key : String) : loaderName key ≠ key := by
  intro h
  have hlength := congrArg String.length h
  rw [loaderName, String.length_append] at hlength
  exact absurd hlength (by simp)

namespace Descriptor

/-- The names under which the lookups of a field are counted. -/
def lookups (d : Descriptor) : List String :=
  (if d.trigger.isSome then [d.key] else []) ++ if d.loader.isSome then [loaderName d.key] else []

/-- A field has a lookup of a name just if it is the key of its trigger or the name of its loader.
-/
theorem mem_lookups {d : Descriptor} {name : String} : name ∈ d.lookups ↔
    (d.trigger.isSome = true ∧ name = d.key) ∨
      (d.loader.isSome = true ∧ name = loaderName d.key) := by
  unfold lookups
  cases d.trigger <;> cases d.loader <;> simp

/-- The lookups of one field have different names. -/
theorem nodup_lookups (d : Descriptor) : d.lookups.Nodup := by
  have hne := (loaderName_ne d.key).symm
  unfold lookups
  cases d.trigger <;> cases d.loader <;> simp [hne]

end Descriptor

namespace Plan

variable (plan : Plan)

/-! ## Counters -/

/-- The names of all lookups of a table. -/
def lookups : List String :=
  plan.descriptors.flatMap Descriptor.lookups

/-- No loader of a table has the key of a trigger for a name. -/
def Apart : Prop :=
  ∀ d ∈ plan.descriptors, d.loader.isSome = true → plan.trigger? (loaderName d.key) = none

/-- A field of a table with a trigger is found as that trigger. -/
theorem trigger?_key {d : Descriptor} (hd : d ∈ plan.descriptors) :
    plan.trigger? d.key = d.trigger :=
  congrArg (·.bind Descriptor.trigger) (plan.find?_key hd)

/-- At the start there is one counter for each name of a lookup, at zero, and there is no other. -/
theorem valueOf?_generations (name : String) :
    Assoc.valueOf? plan.generations name = if name ∈ plan.lookups then some 0 else none := by
  -- The counters of the fields so far stay while the other fields are counted.
  have hcount : ∀ (ds : List Descriptor) (counters : Assoc Nat),
      Assoc.valueOf? (ds.foldl (fun counters d =>
        let counters := if d.trigger.isSome then Assoc.put counters d.key 0 else counters
        if d.loader.isSome then Assoc.put counters (loaderName d.key) 0 else counters)
          counters) name = if name ∈ ds.flatMap Descriptor.lookups then some 0
            else Assoc.valueOf? counters name := by
    intro ds
    induction ds with
    | nil => exact fun _ => rfl
    | cons d rest ih =>
      intro counters
      rw [List.foldl_cons, ih, List.flatMap_cons]
      simp only [List.mem_append, Descriptor.mem_lookups]
      cases d.trigger with
      | none => cases d.loader <;> grind [Assoc.valueOf?_put]
      | some trigger => cases d.loader <;> grind [Assoc.valueOf?_put]
  exact hcount plan.descriptors []

/-- Every lookup has a counter of its own just if no loader has the key of a trigger for a name. -/
theorem nodup_lookups_iff : plan.lookups.Nodup ↔ plan.Apart := by
  rw [lookups, List.nodup_flatMap]
  constructor
  · rintro ⟨-, hpairs⟩ d hd hloader
    by_contra hclash
    obtain ⟨t, ht⟩ := Option.ne_none_iff_exists'.1 hclash
    obtain ⟨e, hfind, he⟩ := Option.bind_eq_some_iff.1 ht
    have hkey : e.key = loaderName d.key := by simpa using List.find?_some hfind
    have hne : d ≠ e := fun h => loaderName_ne d.key (by rw [← hkey, h])
    have hsymm : Std.Symm (Function.onFun List.Disjoint Descriptor.lookups) :=
      ⟨fun _ _ h _ hright hleft => h hleft hright⟩
    have hdisjoint := hpairs.forall hd (List.mem_of_find?_eq_some hfind) hne
    exact hdisjoint (Descriptor.mem_lookups.2 (.inr ⟨hloader, rfl⟩))
      (Descriptor.mem_lookups.2 (.inl ⟨by rw [he]; rfl, hkey.symm⟩))
  · intro hapart
    have hnotKey {d e : Descriptor} (hd : d ∈ plan.descriptors) (he : e ∈ plan.descriptors)
        (hloader : d.loader.isSome = true) (htrigger : e.trigger.isSome = true) :
        e.key ≠ loaderName d.key := by
      intro h
      rw [← plan.trigger?_key he, h, hapart d hd hloader] at htrigger
      cases htrigger
    refine ⟨fun d _ => d.nodup_lookups, (List.pairwise_map.1 plan.distinct).imp_of_mem ?_⟩
    intro d e hd he hne name hleft hright
    rcases Descriptor.mem_lookups.1 hleft with ⟨htrigger, rfl⟩ | ⟨hloader, rfl⟩
    · rcases Descriptor.mem_lookups.1 hright with ⟨-, hkey⟩ | ⟨hloader, hkey⟩
      · exact hne hkey
      · exact hnotKey he hd hloader htrigger hkey
    · rcases Descriptor.mem_lookups.1 hright with ⟨htrigger, hkey⟩ | ⟨-, hkey⟩
      · exact hnotKey hd he hloader htrigger hkey.symm
      · exact hne (loaderName_injective hkey)

/-! ## Lookups that still count -/

/-- The end of a lookup leaves the counters. -/
theorem generation?_complete (r : Resolver) (l : Lookup)
    (answer : Except Fault (Option LookupResult)) (name : String) :
    (plan.complete r l answer).1.generation? name = r.generation? name := by
  have hpropagates : ∀ (keys : List String) (s : Resolver),
      (keys.foldl plan.propagate s).generations = s.generations := by
    intro keys
    induction keys with
    | nil => exact fun _ => rfl
    | cons key rest ih => exact fun s => ih (plan.propagate s key)
  obtain ⟨journal, hdone | ⟨cause, -, hdone⟩ | ⟨result, -, hdone⟩⟩ :=
    plan.complete_resolver r l answer
  · rw [hdone]
    rfl
  · rw [hdone]
    rfl
  · obtain ⟨facets, hoffered⟩ := (r.without l).offerAll_facets result.choices
    have hsame : ((r.without l).offerAll result.choices).1.generations = r.generations := by
      rw [hoffered]
      rfl
    have happly : (plan.apply (r.without l) result).1.generations = r.generations := by
      unfold apply
      split
      · next hfault => rwa [hfault] at hsame
      · next hok =>
        rw [hok] at hsame
        exact (hpropagates _ _).trans hsame
    rw [hdone]
    exact congrArg (Assoc.valueOf? · name) happly

/-- A step issues the loader of a field. -/
def Loads (r : Resolver) (key : String) (t : Trigger) (step : Step) : Prop :=
  ∃ l ∈ (plan.take r step).inFlight, l.OfChoices key t ∧ r.issued ≤ l.ticket.number

/-- Some step of a run issues the loader of a field. -/
def LoadsIn (r : Resolver) (key : String) (t : Trigger) (steps : List Step) : Prop :=
  ∃ before step after, steps = before ++ step :: after ∧ plan.Loads (plan.run r before) key t step

variable {plan} {d : Descriptor} {t : Trigger} {r : Resolver} {l : Lookup}

/-- A change counts nothing under a name that is not the key of a trigger. -/
theorem generation?_change_of_apart {name : String} (hapart : plan.trigger? name = none)
    (r : Resolver) (key : String) (value : Value) (running : Bool) :
    (plan.change r key value running).1.generation? name = r.generation? name := by
  rcases plan.change_cases r key value running with
    ⟨fault, hchange⟩ | ⟨-, -, -, hchange⟩ | ⟨trigger, htrigger, -, -, -, hchange⟩
  · rw [hchange]
  · rw [hchange]
    rfl
  · have hne : key ≠ name := fun h => by
      rw [h, hapart] at htrigger
      cases htrigger
    rw [hchange]
    refine (plan.generation?_rerun r key value trigger name).trans ?_
    rw [plan.countP_supersedes_cascade, if_neg (by simp [hapart]), if_neg hne]
    exact Option.map_id' ..

/-- A first load counts a loader only if it issues it. -/
theorem generation?_prime_of_apart (hd : d ∈ plan.descriptors) (ht : d.loader = some t)
    (hapart : plan.trigger? (loaderName d.key) = none) (r : Resolver) (running : Bool) :
    (plan.prime r running).1.generation? (loaderName d.key) = r.generation? (loaderName d.key) ∨
      plan.Loads r d.key t (.prime running) := by
  refine (plan.prime_induct (P := fun s => r.issued ≤ s.issued ∧
    (s.generation? (loaderName d.key) = r.generation? (loaderName d.key) ∨
      ∃ l ∈ s.inFlight, l.OfChoices d.key t ∧ r.issued ≤ l.ticket.number))
    ?_ ?_ ⟨Nat.le_refl _, .inl rfl⟩ running).2
  · rintro s e loader he hloader ⟨hissued, hcase⟩
    refine ⟨Nat.le_succ_of_le hissued, ?_⟩
    rcases hcase with hsame | ⟨l, hl, hissues⟩
    · by_cases hkey : e.key = d.key
      · obtain rfl : e = d := List.inj_on_of_nodup_map plan.distinct he hd hkey
        obtain rfl : loader = t := Option.some.inj (hloader.symm.trans ht)
        exact .inr ⟨_, List.mem_append_right _ (.head _), ⟨rfl, rfl, rfl⟩, hissued⟩
      · have hne : loaderName e.key ≠ loaderName d.key := fun h => hkey (loaderName_injective h)
        refine .inl (Eq.trans ?_ hsame)
        rw [Resolver.generation?_reissue, if_neg hne]
        exact Option.map_id' ..
    · exact .inr ⟨l, List.mem_append_left _ hl, hissues⟩
  · rintro s e trigger value he htrigger - - - ⟨hissued, hcase⟩
    refine ⟨Nat.le_succ_of_le hissued, ?_⟩
    rcases hcase with hsame | ⟨l, hl, hissues⟩
    · have hne : e.key ≠ loaderName d.key := fun h => by
        rw [← h, plan.trigger?_key he, htrigger] at hapart
        cases hapart
      refine .inl (Eq.trans ?_ hsame)
      rw [Resolver.generation?_reissue, if_neg hne]
      exact Option.map_id' ..
    · exact .inr ⟨l, List.mem_append_left _ hl, hissues⟩

/-- A step that takes away that the lookup of a loader counts issues the loader anew. -/
theorem isStale_take (hd : d ∈ plan.descriptors) (ht : d.loader = some t)
    (hapart : plan.trigger? (loaderName d.key) = none) (hl : l.OfChoices d.key t)
    (hcounts : r.isStale l = false) (step : Step) :
    (plan.take r step).isStale l = false ∨ plan.Loads r d.key t step := by
  have hkeeps (s : Resolver) (h : s.generation? (loaderName d.key) =
      r.generation? (loaderName d.key)) : s.isStale l = false := by
    rw [Resolver.isStale_loader hl.compareKey, Resolver.Latest, hl.trigger] at hcounts ⊢
    exact h.trans hcounts
  cases step with
  | change key value running =>
    exact .inl (hkeeps _ (generation?_change_of_apart hapart r key value running))
  | prime running =>
    exact (generation?_prime_of_apart hd ht hapart r running).imp_left (hkeeps _)
  | complete number ending =>
    refine .inl (hkeeps _ ?_)
    unfold take
    dsimp only
    split
    · exact plan.generation?_complete ..
    · rfl

/-- A run that takes away that the lookup of a loader counts issues the loader anew. -/
theorem isStale_run (hd : d ∈ plan.descriptors) (ht : d.loader = some t)
    (hapart : plan.trigger? (loaderName d.key) = none) (hl : l.OfChoices d.key t)
    (hcounts : r.isStale l = false) (steps : List Step) :
    (plan.run r steps).isStale l = false ∨ plan.LoadsIn r d.key t steps := by
  induction steps generalizing r with
  | nil => exact .inl hcounts
  | cons step rest ih =>
    rcases isStale_take hd ht hapart hl hcounts step with hcounts | hloads
    · rcases ih hcounts with hcounts | ⟨before, later, after, rfl, hloads⟩
      · exact .inl hcounts
      · exact .inr ⟨step :: before, later, after, rfl, hloads⟩
    · exact .inr ⟨[], step, rest, rfl, hloads⟩

/-- A loader that counts and fails marks the field that it fills, and no other one. -/
theorem complete_loader_of_error {key : String} (hl : l.OfChoices key t)
    (hcounts : r.isStale l = false) (cause : Fault) :
    (∃ report, (plan.complete r l (.error cause)).2 = .ok {
      trigger := loaderName key, value := l.ticket.value, status := .failed
      error := some report }) ∧
    ∀ other, (plan.complete r l (.error cause)).1.model.lookupError? other =
      if key = other then (r.model.find? other).map fun _ => cause.mark
      else r.model.lookupError? other := by
  have howner : l.owner = key := by
    rw [Lookup.owner, hl.compareKey, hl.trigger]
    exact loadedField_of_loader key
  rw [plan.complete_of_error hcounts]
  exact ⟨⟨_, by rw [← hl.trigger]; rfl⟩, lookupError?_fail howner cause⟩

/-- Where the name of a loader is the key of a trigger, a change of that key takes away that a
lookup of the loader counts. -/
theorem isStale_change_of_clash {key : String} {u : Trigger}
    (hclash : plan.trigger? (loaderName key) = some u) (hl : l.OfChoices key t)
    (hcounts : r.isStale l = false) (hready : r.ready = true)
    (hheld : r.model.holds (loaderName key) = true) (value : Value) :
    (plan.change r (loaderName key) value true).1.isStale l = true := by
  rw [plan.change_of_trigger value hclash hready hheld, ← Bool.not_eq_false]
  rw [Resolver.isStale_loader hl.compareKey, Resolver.Latest, hl.trigger] at hcounts ⊢
  rw [plan.generation?_rerun, hcounts, if_pos rfl, Option.map_some, Option.some_inj]
  omega

/-- Lookups do not share a name, up to loaders whose names are keys of triggers. There is one
counter for each name of a lookup, so each lookup has a counter of its own just if no loader of the
table has the key of a trigger for a name. A lookup of a loader that counts goes on to count in
every run that does not issue the loader anew, unless there is such a trigger, a change of which
takes that away. A lookup of a loader that fails while it counts marks the field that it fills and
no other one: the key of the field is recovered from the name. -/
theorem names_apart (plan : Plan) :
    (∀ name, Assoc.valueOf? plan.generations name = if name ∈ plan.lookups then some 0 else none) ∧
    (plan.lookups.Nodup ↔ plan.Apart) ∧
    (∀ key, loadedField (loaderName key) = key) ∧
    ∀ d ∈ plan.descriptors, ∀ t, d.loader = some t → ∀ (r : Resolver) (l : Lookup),
      l.OfChoices d.key t → r.isStale l = false →
        (plan.trigger? (loaderName d.key) = none → ∀ steps,
          (plan.run r steps).isStale l = true → plan.LoadsIn r d.key t steps) ∧
        ((plan.trigger? (loaderName d.key)).isSome = true → r.ready = true →
          r.model.holds (loaderName d.key) = true → ∀ value,
            (plan.change r (loaderName d.key) value true).1.isStale l = true) ∧
        ∀ cause, (∃ report, (plan.complete r l (.error cause)).2 = .ok {
            trigger := loaderName d.key, value := l.ticket.value, status := .failed
            error := some report }) ∧
          ∀ key, (plan.complete r l (.error cause)).1.model.lookupError? key =
            if d.key = key then (r.model.find? key).map fun _ => cause.mark
            else r.model.lookupError? key := by
  refine ⟨plan.valueOf?_generations, plan.nodup_lookups_iff, loadedField_of_loader, ?_⟩
  intro d hd t ht r l hl hcounts
  refine ⟨?_, ?_, complete_loader_of_error hl hcounts⟩
  · intro hapart steps hstale
    exact (isStale_run hd ht hapart hl hcounts steps).resolve_left (by simp [hstale])
  · intro hclash hready hheld value
    obtain ⟨u, hu⟩ := Option.isSome_iff_exists.1 hclash
    exact isStale_change_of_clash hu hl hcounts hready hheld value

/-- A lookup that asks about its key and offers choices. -/
def offering (key : String) (choices : Assoc (List Choice)) : Trigger where
  fetch := .scripted {
    name := key, key, skipIfBlank := none, failures := [], values := [], choices }

/-- A table of a field with a loader and another field with a trigger. -/
def loaderBeside (other : String) (hne : other ≠ "a") : Plan where
  descriptors := [
    { key := "a", kind := .input
      loader := some (offering "a" [("a", [⟨.text "x", .text "x"⟩])]) },
    { key := other, kind := .input, trigger := some (offering other []) }]
  distinct := by simp [hne.symm]
  react := .none

/-- Beside a trigger whose key only comes close to the name of the loader, the loader is superseded
by a second first load, and its failure is shown beside its field. -/
theorem names_apart_close :
    let plan := loaderBeside "a:option" (by decide)
    let t := offering "a" [("a", [⟨.text "x", .text "x"⟩])]
    let r := plan.take (plan.begun (Model.ofMembers [])) (.prime true)
    ∃ l ∈ r.inFlight, l.OfChoices "a" t ∧ r.isStale l = false ∧
      plan.LoadsIn r "a" t [.prime true] ∧
      (plan.complete r l (.error .timedOut)).1.model.lookupError? "a" = some "TimeoutError" := by
  intro plan t r
  let l : Lookup := (plan.begun (Model.ofMembers [])).newLookup "a:options" t.fetch none
  have hl : l.OfChoices "a" t := ⟨rfl, rfl, rfl⟩
  have hcounts : r.isStale l = false := by decide +kernel
  have hstale : (plan.run r [.prime true]).isStale l = true := by decide +kernel
  obtain ⟨hruns, -, hfails⟩ := (names_apart plan).2.2.2 _ (.head _) t rfl r l hl hcounts
  refine ⟨l, .head _, hl, hcounts, hruns (by rfl) _ hstale, ((hfails .timedOut).2 "a").trans ?_⟩
  rfl

/-- Beside a trigger whose key is the name of the loader, a change of that key discards the lookup
of the loader, which was issued once only. -/
theorem names_collide :
    let plan := loaderBeside "a:options" (by decide)
    let t := offering "a" [("a", [⟨.text "x", .text "x"⟩])]
    let start := plan.setUp (plan.start (Model.ofMembers []))
    let r := plan.take start.1 (.prime true)
    let step := Step.change "a:options" (.text "v") true
    start.2 = .ok () ∧ ¬ plan.lookups.Nodup ∧
      ∃ l ∈ r.inFlight, l.OfChoices "a" t ∧ r.isStale l = false ∧ ¬ plan.Loads r "a" t step ∧
        ∃ outcome, (plan.complete (plan.take r step) l
            ((Ending.answered Fixture.empty.toCatalog).answer l)).2 = .ok outcome ∧
          outcome.status = .discarded := by
  intro plan t start r step
  let l : Lookup := start.1.newLookup "a:options" t.fetch none
  have hl : l.OfChoices "a" t := ⟨rfl, rfl, rfl⟩
  have hcounts : r.isStale l = false := by decide +kernel
  have htrigger : plan.trigger? "a:options" = some (offering "a:options" []) := rfl
  have hheld : r.model.holds "a:options" = true := by decide +kernel
  have hstale : (plan.take r step).isStale l = true :=
    isStale_change_of_clash htrigger hl hcounts rfl hheld (.text "v")
  obtain ⟨event, hdone⟩ := plan.complete_of_stale hstale
    ((Ending.answered Fixture.empty.toCatalog).answer l)
  refine ⟨rfl, by decide +kernel, l, .head _, hl, hcounts, ?_, _, congrArg Prod.snd hdone, rfl⟩
  -- The change issues the lookup of its own trigger, and the first load was before it.
  rintro ⟨l', hl', hof, hnumber⟩
  have hchange : plan.take r step =
      (plan.rerun r "a:options" (.text "v") (offering "a:options" [])).1 :=
    congrArg Prod.fst (plan.change_of_trigger (.text "v") htrigger rfl hheld)
  rw [hchange, (plan.inFlight_rerun ..).1] at hl'
  rcases List.mem_append.1 hl' with hbefore | hnew
  · have hfirst : r.inFlight.map (·.ticket.number) = [0] := by decide +kernel
    have hzero := hfirst ▸ List.mem_map_of_mem (f := fun l : Lookup => l.ticket.number) hbefore
    have hone : r.issued = 1 := rfl
    rw [List.mem_singleton.1 hzero, hone] at hnumber
    exact absurd hnumber (by decide)
  · have hkey := hof.compareKey
    rw [List.mem_singleton.1 hnew] at hkey
    cases hkey

end Plan

end SyncForm
