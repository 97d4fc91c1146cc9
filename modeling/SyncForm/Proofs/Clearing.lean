import SyncForm.Proofs.Reachable

/-!
# What a change of a trigger clears

A change of a trigger resets the keys that are reachable from it over what triggers produce, the
trigger itself apart, whatever the shape of the table: a key that is reached on several paths, or
again on a cycle, is reset once. Each reset is announced once, supersedes the lookups of the key
where it is a trigger, and empties the choices that such lookups fill; nothing else changes
(`Plan.Cleared`). `Plan.cleared_change` says so of every state that a resolver reaches, for a form
that only watches what is written.
-/

namespace SyncForm

/-- A form that only watches: it leaves its model alone, and what it reports is no write. -/
structure Reaction.Watches (react : Reaction) : Prop where
  leaves : ∀ key m, (react key m).1 = m
  silent : ∀ key m, (react key m).2.filterMap Event.written? = []

/-- A form that only watches spares every key. -/
theorem Reaction.Watches.spares {react : Reaction} (h : react.Watches) (key : String) :
    react.Spares key := by
  intro written m
  rw [h.leaves]

/-- A form that does nothing watches. -/
theorem Reaction.none_watches : Reaction.none.Watches :=
  ⟨fun _ _ => rfl, fun _ _ => rfl⟩

/-- The writes that a resolver has announced to the subscribers of the keys, in order. -/
def Resolver.announced (r : Resolver) : List (String × Value) :=
  r.journal.filterMap Event.written?

namespace Plan

variable {plan : Plan} (hreact : plan.react.Watches) (r : Resolver)

include hreact

/-- Announcing a key announces its value. -/
theorem announced_propagate (key : String) :
    (plan.propagate r key).announced = r.announced ++ [(key, r.model.get key)] := by
  have hjournal : (plan.propagate r key).journal =
      (r.journal ++ (plan.react key r.model).2) ++
        [.wrote key ((plan.react key r.model).1.get key)] := rfl
  rw [Resolver.announced, hjournal, hreact.leaves, List.filterMap_append, List.filterMap_append,
    hreact.silent, List.append_nil]
  rfl

/-- Writing a value of the user announces it. -/
theorem announced_write (key : String) (value : Value) :
    (plan.write r key value).announced = r.announced ++ [(key, value)] := by
  have hvalue : (r.model.setUser key value).get key = value := by
    exact Model.get_of_value? ((Model.value?_setUser ..).trans (if_pos rfl))
  rw [write, announced_propagate hreact, hvalue]
  rfl

/-- A cascade announces the default of every key that it resets, in order. -/
theorem announced_runSteps (steps : List CascadeStep) :
    (steps.foldl plan.runStep r).announced =
      r.announced ++ (resetKeys steps).map fun key => (key, plan.usual key) := by
  induction steps generalizing r with
  | nil => exact (List.append_nil _).symm
  | cons step rest ih =>
    rw [List.foldl_cons, ih]
    cases step with
    | empty field => rfl
    | supersede name => rfl
    | reset key =>
      have hvalue : (r.model.clear key (plan.usual key)).get key = plan.usual key := by
        exact Model.get_of_value? ((Model.value?_clear ..).trans (if_pos rfl))
      rw [runStep, announced_propagate hreact, hvalue, List.append_assoc]
      rfl

/-- A changed trigger announces its new value and then the default of every key that its cascade
resets. -/
theorem announced_rerun (key : String) (value : Value) (t : Trigger) :
    (plan.rerun r key value t).1.announced = r.announced ++ (key, value) ::
      (resetKeys (plan.cascade key t)).map fun other => (other, plan.usual other) := by
  have hissued : (plan.rerun r key value t).1.announced =
      ((plan.cascade key t).foldl plan.runStep (plan.write r key value)).announced := by
    have hjournal : (plan.rerun r key value t).1.journal =
        ((plan.cascade key t).foldl plan.runStep (plan.write r key value)).journal ++
          [.issued key (plan.rerun r key value t).2.value] := rfl
    rw [Resolver.announced, hjournal, List.filterMap_append]
    exact List.append_nil _
  rw [hissued, announced_runSteps hreact, announced_write hreact, List.append_assoc]
  rfl

omit hreact

/-- What a change of a trigger does, when it leads from one resolver to another and resets some
keys. -/
structure Cleared (plan : Plan) (r : Resolver) (key : String) (value : Value) (r' : Resolver)
    (resets : List String) : Prop where
  /-- The keys reset are the other keys reachable from the trigger, -/
  reached : ∀ other, other ∈ resets ↔ other ≠ key ∧ Relation.TransGen plan.Produces key other
  /-- each of them once; -/
  once : resets.Nodup
  /-- they have their defaults as defaults, without errors; -/
  usual : ∀ other ∈ resets, r'.model.find? other = some { value := plan.usual other }
  /-- the change and the resets are announced, and nothing else; -/
  announced : r'.announced =
    r.announced ++ (key, value) :: resets.map fun other => (other, plan.usual other)
  /-- the counters of the trigger and of the triggers reset move on by one, -/
  counted : ∀ name, name = key ∨ (name ∈ resets ∧ (plan.trigger? name).isSome = true) →
    ∃ n, r.generation? name = some n ∧ r'.generation? name = some (n + 1)
  /-- the other counters stand still; -/
  still : ∀ name, name ≠ key → (name ∈ resets → plan.trigger? name = none) →
    r'.generation? name = r.generation? name
  /-- no choices are left that these triggers fill, those of a rule apart; -/
  emptied : ∀ upper ∈ key :: resets, ∀ t, plan.trigger? upper = some t →
    ∀ field ∈ t.choiceKeys, plan.RuleFree field → r'.choices? field = some []
  /-- the trigger holds its new value, and all other keys hold what they held. -/
  given : r'.model.value? key = some value
  kept : ∀ other, other ≠ key → other ∉ resets → r'.model.find? other = r.model.find? other

variable {r} {key : String} {t : Trigger}

/-- An accepted change of a trigger clears what its lookups bring. -/
theorem cleared_rerun (hreact : plan.react.Watches) (hfits : plan.Fits r)
    (hfills : ∀ upper t, plan.trigger? upper = some t →
      ∀ field ∈ t.choiceKeys, field ∈ plan.descriptors.map (·.key))
    (ht : plan.trigger? key = some t) (value : Value) :
    plan.Cleared r key value (plan.rerun r key value t).1 (resetKeys (plan.cascade key t)) := by
  have hreached := plan.mem_resets_cascade ht
  have hself : key ∉ resetKeys (plan.cascade key t) := fun h => ((hreached key).1 h).1 rfl
  have hany : ∀ other, (plan.cascade key t).any (·.resets other) = true ↔
      other ∈ resetKeys (plan.cascade key t) := fun other => mem_resetKeys.symm
  have hcount : ∀ name, (plan.rerun r key value t).1.generation? name =
      (r.generation? name).map (· + ((if name ∈ resetKeys (plan.cascade key t) ∧
        (plan.trigger? name).isSome = true then 1 else 0) + if key = name then 1 else 0)) := by
    intro name
    rw [plan.generation?_rerun, plan.countP_supersedes_cascade]
  constructor
  case reached => exact hreached
  case once =>
    rw [plan.resetKeys_cascade]
    exact (plan.nodup_resets [key] t.produces).1
  case usual =>
    intro other hother
    rw [plan.find?_rerun (hreact.spares other), if_pos ((hany other).2 hother)]
  case announced => exact announced_rerun hreact r key value t
  case counted =>
    rintro name (rfl | ⟨hreset, htrigger⟩)
    · obtain ⟨n, hn⟩ := hfits.generation_isSome ht
      refine ⟨n, hn, ?_⟩
      rw [hcount, hn, if_neg fun h => hself h.1, if_pos rfl]
      rfl
    · obtain ⟨t', ht'⟩ := Option.isSome_iff_exists.1 htrigger
      obtain ⟨n, hn⟩ := hfits.generation_isSome ht'
      have hne : key ≠ name := fun h => hself (h ▸ hreset)
      refine ⟨n, hn, ?_⟩
      rw [hcount, hn, if_pos ⟨hreset, htrigger⟩, if_neg hne]
      rfl
  case still =>
    intro name hne hplain
    have hnot : ¬ (name ∈ resetKeys (plan.cascade key t) ∧ (plan.trigger? name).isSome = true) := by
      rintro ⟨hreset, htrigger⟩
      rw [hplain hreset] at htrigger
      cases htrigger
    rw [hcount, if_neg hnot, if_neg hne.symm]
    exact Option.map_id' ..
  case emptied =>
    intro upper hupper t' ht' field hfield hfree
    obtain ⟨choices, hchoices⟩ := hfits.choices_isSome (hfills upper t' ht' field hfield)
    have hempties : (plan.cascade key t).any (·.empties field) = true :=
      (plan.any_empties_cascade ht field).2 ⟨upper, hupper, t', ht', hfield⟩
    rw [plan.choices?_rerun hfree, hchoices, hempties]
    rfl
  case given =>
    rw [plan.value?_rerun (hreact.spares key), if_neg fun h => hself ((hany key).1 h), if_pos rfl]
  case kept =>
    intro other hne hother
    rw [plan.find?_rerun (hreact.spares other), if_neg fun h => hother ((hany other).1 h),
      if_neg hne.symm]

variable {ends : Lookup → Except Fault (Option LookupResult) → Prop} {m : Model}

/-- Clearing is exact for every graph of triggers. Whatever the table, the model that the form
started from and the ends that its lookups came to, in every state that is reached a change of a
trigger that the model holds comes to an end, and resets, announces, supersedes and empties what is
reachable from the trigger, once, and nothing else. -/
theorem cleared_change (hreact : plan.react.Watches) (hr : plan.Reaches ends m r)
    (ht : plan.trigger? key = some t) (hheld : r.model.holds key = true) (value : Value) :
    ∃ r' ticket resets, plan.change r key value true = (r', .ok (some ticket)) ∧
      plan.Cleared r key value r' resets := by
  have hfills : ∀ upper t, plan.trigger? upper = some t →
      ∀ field ∈ t.choiceKeys, field ∈ plan.descriptors.map (·.key) := by
    intro upper t htrigger
    obtain ⟨d, hfind, hd⟩ := Option.bind_eq_some_iff.1 htrigger
    exact (Descriptor.of_checkDeclarations (hr.checked d (List.mem_of_find?_eq_some hfind))).2 t hd
  exact ⟨_, _, _, plan.change_of_trigger value ht hr.fits.ready hheld,
    cleared_rerun hreact hr.fits hfills ht value⟩

/-- A field whose lookup brings other keys and the choices of one field. -/
def relay (key : String) (produces : List String) (choiceKey : String) : Descriptor :=
  { key, kind := .select
    trigger := some { fetch := .instances key choiceKey, produces, choiceKeys := [choiceKey] } }

/-- A table with a diamond, in which the last field is reached on two paths, and a cycle back to the
first field. -/
def diamond : Plan where
  descriptors := [relay "top" ["left", "right"] "left", relay "left" ["bottom"] "bottom",
    relay "right" ["bottom", "top"] "bottom", { key := "bottom", kind := .number, usual := .int 0 }]
  distinct := by decide
  react := Reaction.none

/-- A change of the top of the diamond resets the three fields below it, the bottom to zero. -/
theorem cleared_diamond : ∃ r' ticket resets,
    diamond.change (diamond.begun .empty) "top" (.text "x") true = (r', .ok (some ticket)) ∧
      diamond.Cleared (diamond.begun .empty) "top" (.text "x") r' resets ∧
        r'.model.value? "bottom" = some (.int 0) := by
  have hstart : diamond.Reaches (fun _ _ => True) .empty (diamond.begun .empty) :=
    .start (diamond.setUp_of_declared (by decide +kernel) .empty)
  have htop : diamond.trigger? "top" =
      some { fetch := .instances "top" "left", produces := ["left", "right"]
             choiceKeys := ["left"] } := rfl
  have hheld : (diamond.begun .empty).model.holds "top" = true := by decide +kernel
  obtain ⟨r', ticket, resets, hchange, hcleared⟩ :=
    cleared_change Reaction.none_watches hstart htop hheld (.text "x")
  refine ⟨r', ticket, resets, hchange, hcleared, ?_⟩
  have hleft : diamond.Produces "top" "left" := ⟨_, rfl, by decide⟩
  have hbottom : diamond.Produces "left" "bottom" := ⟨_, rfl, by decide⟩
  have hreset : "bottom" ∈ resets :=
    (hcleared.reached "bottom").2 ⟨by decide, .tail (.single hleft) hbottom⟩
  exact Model.value?_of_find? (hcleared.usual "bottom" hreset)

end Plan

end SyncForm
