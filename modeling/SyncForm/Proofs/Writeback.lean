import SyncForm.Catalog.Fixture
import SyncForm.Proofs.Display

/-!
# What the end of a lookup writes back

A lookup that still counts ends in one of four ways. A failure and a lookup without a result leave
every value, every source and every list of choices. A result that names only fields of the table is
written back as a whole before any of its keys is announced, and the lookup is applied. A result that
names a field that the table does not have breaks off at that field: the fault leaves the lookup,
with the choices before that field replaced and nothing else. `Plan.writeback_reaches` says so of
every table and every state that is reached.
-/

namespace SyncForm

/-- The values of a lookup show under their keys, with a lookup as their source. -/
theorem Model.find?_setLookups {values : Assoc Value} (hnodup : (Assoc.keys values).Nodup)
    {key : String} {value : Value} (h : (key, value) ∈ values) (m : Model) :
    (values.foldl (fun m (key, value) => m.setLookup key value) m).find? key =
      some (((m.find? key).getD { value := .text "" }).setLookup value) := by
  induction values generalizing m with
  | nil => exact absurd h List.not_mem_nil
  | cons kv rest ih =>
    obtain ⟨hfirst, hrest⟩ := List.nodup_cons.1 hnodup
    rw [List.foldl_cons]
    rcases List.mem_cons.1 h with rfl | hmem
    · rw [find?_setLookups_other hfirst]
      exact (find?_write ..).trans (if_pos rfl)
    · have hlisted : key ∈ Assoc.keys rest := List.mem_map.2 ⟨_, hmem, rfl⟩
      have hne : kv.1 ≠ key := by
        rintro rfl
        exact hfirst hlisted
      have hentry : (m.setLookup kv.1 kv.2).find? key = m.find? key :=
        (find?_write ..).trans (if_neg hne)
      rw [ih hrest hmem, hentry]

namespace Resolver

/-! ## Choices of several fields -/

/-- Offering choices adds and drops no field. -/
theorem holds_offer (r : Resolver) (field : String) (choices : List Choice) (other : String) :
    Assoc.holds (r.offer field choices).facets other = Assoc.holds r.facets other := by
  unfold Assoc.holds offer
  rw [Assoc.valueOf?_adjust]
  split
  · exact Option.isSome_map
  · rfl

/-- Offering choices changes the states of fields only. -/
theorem offerAll_facets (r : Resolver) (choices : Assoc (List Choice)) :
    ∃ facets, (r.offerAll choices).1 = { r with facets } := by
  induction choices generalizing r with
  | nil => exact ⟨r.facets, rfl⟩
  | cons fc rest ih =>
    obtain ⟨field, offered⟩ := fc
    unfold offerAll
    split
    · obtain ⟨facets, hrest⟩ := ih (r.offer field offered)
      exact ⟨facets, hrest⟩
    · exact ⟨r.facets, rfl⟩

/-- The choices of fields that are there are all replaced. -/
theorem offerAll_of_known {choices : Assoc (List Choice)} {r : Resolver}
    (h : ∀ field ∈ Assoc.keys choices, Assoc.holds r.facets field = true) :
    (r.offerAll choices).2 = .ok () := by
  induction choices generalizing r with
  | nil => rfl
  | cons fc rest ih =>
    obtain ⟨field, offered⟩ := fc
    unfold offerAll
    rw [if_pos (h field (.head _))]
    refine ih fun other hother => ?_
    rw [holds_offer]
    exact h other (.tail _ hother)

/-- The first field that is not there stops the replacement. -/
theorem offerAll_of_unknown {before after : Assoc (List Choice)} {field : String}
    {offered : List Choice} {r : Resolver}
    (h : ∀ known ∈ Assoc.keys before, Assoc.holds r.facets known = true)
    (hfield : Assoc.holds r.facets field = false) :
    r.offerAll (before ++ (field, offered) :: after) =
      ((r.offerAll before).1, .error (.missingKey field)) := by
  induction before generalizing r with
  | nil =>
    unfold offerAll
    exact if_neg (Bool.eq_false_iff.1 hfield)
  | cons fc rest ih =>
    obtain ⟨first, choices⟩ := fc
    rw [List.cons_append, offerAll, offerAll, if_pos (h first (.head _)),
      if_pos (h first (.head _))]
    refine ih (fun known hknown => ?_) ?_
    · rw [holds_offer]
      exact h known (.tail _ hknown)
    · rw [holds_offer]
      exact hfield

/-- Offering choices leaves the choices of all other fields. -/
theorem choices?_offerAll_other {choices : Assoc (List Choice)} {field : String}
    (h : field ∉ Assoc.keys choices) (r : Resolver) :
    (r.offerAll choices).1.choices? field = r.choices? field := by
  induction choices generalizing r with
  | nil => rfl
  | cons fc rest ih =>
    obtain ⟨first, offered⟩ := fc
    have hne : first ≠ field := fun heq => h (heq ▸ .head _)
    have hrest : field ∉ Assoc.keys rest := fun hmem => h (.tail _ hmem)
    unfold offerAll
    split
    · rw [ih hrest, choices?_offer, if_neg hne]
    · rfl

/-- Each field that is there is given the choices offered to it. -/
theorem choices?_offerAll {choices : Assoc (List Choice)} (hnodup : (Assoc.keys choices).Nodup)
    {r : Resolver} (hknown : ∀ field ∈ Assoc.keys choices, Assoc.holds r.facets field = true)
    {field : String} {offered : List Choice} (h : (field, offered) ∈ choices) :
    (r.offerAll choices).1.choices? field = some offered := by
  induction choices generalizing r with
  | nil => exact absurd h List.not_mem_nil
  | cons fc rest ih =>
    obtain ⟨hfirst, hrest⟩ := List.nodup_cons.1 hnodup
    rw [offerAll, if_pos (hknown fc.1 (.head _))]
    rcases List.mem_cons.1 h with rfl | hmem
    · obtain ⟨f, hf⟩ := Option.isSome_iff_exists.1 (hknown field (.head _))
      rw [choices?_offerAll_other hfirst, choices?_offer, if_pos rfl, choices?, hf]
      rfl
    · refine ih hrest (fun other hother => ?_) hmem
      rw [holds_offer]
      exact hknown other (.tail _ hother)

/-! ## Results -/

/-- A result stands in a resolver that was reached from another one: every value is held under its
key, with a lookup as its source, every list of choices is offered by its field, and all other
entries and choices and the counters are those from before. -/
structure Brought (r : Resolver) (result : LookupResult) (r' : Resolver) : Prop where
  written : ∀ key value, (key, value) ∈ result.values → r'.model.find? key =
    some (((r.model.find? key).getD { value := .text "" }).setLookup value)
  kept : ∀ key, key ∉ Assoc.keys result.values → r'.model.find? key = r.model.find? key
  offered : ∀ field choices, (field, choices) ∈ result.choices → r'.choices? field = some choices
  left : ∀ field, field ∉ Assoc.keys result.choices → r'.choices? field = r.choices? field
  counters : r'.generations = r.generations

/-- Nothing of a result stands in a resolver that was reached from another one: every key holds its
value with its source, and every field offers its choices. -/
structure Unwritten (r r' : Resolver) : Prop where
  values : ∀ key, (r'.model.find? key).map (fun e => (e.value, e.source)) =
    (r.model.find? key).map fun e => (e.value, e.source)
  choices : ∀ field, r'.choices? field = r.choices? field
  counters : r'.generations = r.generations

/-- The choices of a result whose fields are there stand in a resolver once they are offered. -/
theorem brought_offerAll {choices : Assoc (List Choice)} (hnodup : (Assoc.keys choices).Nodup)
    {r : Resolver} (hknown : ∀ field ∈ Assoc.keys choices, Assoc.holds r.facets field = true) :
    r.Brought { choices } (r.offerAll choices).1 := by
  obtain ⟨facets, hfacets⟩ := r.offerAll_facets choices
  constructor
  case written =>
    intro key value hmem
    exact absurd hmem List.not_mem_nil
  case kept =>
    intro key _
    rw [hfacets]
  case offered =>
    intro field offered hmem
    exact choices?_offerAll hnodup hknown hmem
  case left =>
    intro field hfield
    exact choices?_offerAll_other hfield r
  case counters => rw [hfacets]

/-- What stands in a resolver does not depend on the lookups that were in flight before. -/
theorem Brought.of_without {r r' : Resolver} {l : Lookup} {result : LookupResult}
    (h : (r.without l).Brought result r') : r.Brought result r' :=
  ⟨h.written, h.kept, h.offered, h.left, h.counters⟩

/-- A result stands in a resolver once its choices do and its values are written. -/
theorem Brought.write {r r' : Resolver} {choices : Assoc (List Choice)}
    (h : r.Brought { choices } r') {values : Assoc Value} (hnodup : (Assoc.keys values).Nodup) :
    r.Brought { values, choices }
      { r' with model := values.foldl (fun m (key, value) => m.setLookup key value) r'.model } := by
  have hmodel : ∀ key, r'.model.find? key = r.model.find? key := fun key =>
    h.kept key List.not_mem_nil
  constructor
  case written =>
    intro key value hmem
    refine (Model.find?_setLookups hnodup hmem r'.model).trans ?_
    rw [hmodel]
  case kept =>
    intro key hkey
    exact (Model.find?_setLookups_other hkey r'.model).trans (hmodel key)
  case offered => exact h.offered
  case left => exact h.left
  case counters => exact h.counters

end Resolver

namespace Plan

variable (plan : Plan) {r : Resolver}

/-! ## Announcements -/

/-- A field takes its choices from a rule and depends on one of the given keys. -/
def Ruled (keys : List String) (field : String) : Prop :=
  ∃ d, plan.find? field = some d ∧ d.choiceRule.isSome = true ∧
    ∃ key ∈ keys, d.dependsOn.contains key = true

/-- What is left when several keys have been announced one after the other. -/
structure Announced (keys : List String) (r r' : Resolver) : Prop where
  /-- The entries that the form spares are those from before, -/
  entries : ∀ key, plan.react.Spares key → r'.model.find? key = r.model.find? key
  /-- and so are all choices but those that a rule gives anew; -/
  choices : ∀ field, ¬ plan.Ruled keys field → r'.choices? field = r.choices? field
  /-- these are what the rule makes of the model, where the form leaves it alone. -/
  ruled : (∀ key m, (plan.react key m).1 = m) → ∀ d rule, plan.find? d.key = some d →
    d.choiceRule = some rule → plan.Ruled keys d.key → (r.choices? d.key).isSome = true →
      r'.choices? d.key = some (rule.build r'.model)

/-- A rule gives the choices of a field anew when a key is announced that the field depends on. -/
theorem choices?_propagate_ruled {d : Descriptor} {rule : ChoiceRule} {key : String}
    (hd : plan.find? d.key = some d) (hrule : d.choiceRule = some rule)
    (hdepends : d.dependsOn.contains key = true) (hheld : (r.choices? d.key).isSome = true) :
    (plan.propagate r key).choices? d.key = some (rule.build (plan.propagate r key).model) := by
  obtain ⟨choices, hchoices⟩ := Option.isSome_iff_exists.1 hheld
  obtain ⟨f, hf, -⟩ := Option.map_eq_some_iff.1 hchoices
  have hfacet : Assoc.valueOf? (plan.propagate r key).facets d.key =
      some (d.refresh (plan.announce r key).model f) := by
    rw [plan.valueOf?_propagate, hf, Option.map_some, refreshed, hd]
    exact congrArg some (if_pos hdepends)
  rw [Resolver.choices?, hfacet, Option.map_some, Descriptor.refresh, hrule]
  rfl

/-- Announcing keys leaves the model where the form does. -/
theorem model_propagates (hreact : ∀ key m, (plan.react key m).1 = m) (keys : List String)
    (r : Resolver) : (keys.foldl plan.propagate r).model = r.model := by
  induction keys generalizing r with
  | nil => rfl
  | cons key rest ih => exact (ih (plan.propagate r key)).trans (hreact key r.model)

/-- Announcing a key drops the choices of no field. -/
theorem choices?_propagate_isSome (r : Resolver) (key field : String) :
    ((plan.propagate r key).choices? field).isSome = (r.choices? field).isSome := by
  rw [Resolver.choices?, Resolver.choices?, plan.valueOf?_propagate, Option.isSome_map,
    Option.isSome_map, Option.isSome_map]

/-- Announcing keys one after the other leaves what `Announced` says. -/
theorem announced_propagates (keys : List String) (r : Resolver) :
    plan.Announced keys r (keys.foldl plan.propagate r) := by
  induction keys generalizing r with
  | nil =>
    refine ⟨fun _ _ => rfl, fun _ _ => rfl, ?_⟩
    rintro - d rule - - ⟨-, -, -, key, hkey, -⟩
    exact absurd hkey List.not_mem_nil
  | cons key rest ih =>
    have hrest := ih (plan.propagate r key)
    constructor
    case entries =>
      intro other hspares
      rw [List.foldl_cons, hrest.entries other hspares, plan.find?_propagate hspares]
    case choices =>
      intro field hfield
      rw [List.foldl_cons, hrest.choices field, plan.choices?_propagate_plain]
      · intro d hd hdepends
        refine Option.not_isSome_iff_eq_none.1 fun hrule => hfield ?_
        exact ⟨d, hd, hrule, key, .head _, hdepends⟩
      · rintro ⟨d, hd, hrule, other, hother, hdepends⟩
        exact hfield ⟨d, hd, hrule, other, .tail _ hother, hdepends⟩
    case ruled =>
      rintro hreact d rule hd hrule ⟨d', hd', -, other, hother, hdepends⟩ hheld
      obtain rfl : d = d' := Option.some.inj (hd.symm.trans hd')
      rw [List.foldl_cons]
      by_cases hlater : plan.Ruled rest d.key
      · refine hrest.ruled hreact d rule hd hrule hlater ?_
        rwa [plan.choices?_propagate_isSome]
      · -- The key announced first is then the one that the field depends on.
        have hfirst : other = key := (List.mem_cons.1 hother).resolve_right fun hmem =>
          hlater ⟨d, hd, by rw [hrule]; rfl, other, hmem, hdepends⟩
        subst hfirst
        rw [hrest.choices d.key hlater, plan.choices?_propagate_ruled hd hrule hdepends hheld,
          plan.model_propagates hreact]

/-- Noting an event leaves what has been announced. -/
theorem Announced.log {plan : Plan} {keys : List String} {r r' : Resolver}
    (h : plan.Announced keys r r') (event : Event) : plan.Announced keys r (r'.log event) :=
  ⟨h.entries, h.choices, h.ruled⟩

/-! ## The end of a lookup -/

variable {plan} {ends : Lookup → Except Fault (Option LookupResult) → Prop} {m : Model}

/-- In a state that is reached just the fields of the table have a state. -/
theorem Fits.holds_facets (h : plan.Fits r) (field : String) :
    Assoc.holds r.facets field = true ↔ field ∈ plan.descriptors.map (·.key) := by
  rw [← Assoc.mem_keys_iff, h.fields]

/-- A result whose choices are those of fields of the table is written back as a whole before its
keys are announced. -/
theorem apply_of_known (h : plan.Fits r) {result : LookupResult}
    (hvalues : (Assoc.keys result.values).Nodup) (hchoices : (Assoc.keys result.choices).Nodup)
    (hknown : ∀ field ∈ Assoc.keys result.choices, field ∈ plan.descriptors.map (·.key)) :
    ∃ r₁, r.Brought result r₁ ∧
      plan.apply r result = ((Assoc.keys result.values).foldl plan.propagate r₁, .ok ()) := by
  have hheld : ∀ field ∈ Assoc.keys result.choices, Assoc.holds r.facets field = true :=
    fun field hfield => (h.holds_facets field).2 (hknown field hfield)
  refine ⟨_, (Resolver.brought_offerAll hchoices hheld).write hvalues, ?_⟩
  unfold apply
  rcases hoffer : r.offerAll result.choices with ⟨r₁, fault | ⟨⟩⟩
  · have hok := Resolver.offerAll_of_known hheld
    rw [hoffer] at hok
    cases hok
  · rfl

/-- A result with choices of a field that the table does not have is written back up to these. -/
theorem apply_of_unknown (h : plan.Fits r) {result : LookupResult}
    (hchoices : (Assoc.keys result.choices).Nodup) {before after : Assoc (List Choice)}
    {field : String} {offered : List Choice}
    (hsplit : result.choices = before ++ (field, offered) :: after)
    (hknown : ∀ known ∈ Assoc.keys before, known ∈ plan.descriptors.map (·.key))
    (hfield : field ∉ plan.descriptors.map (·.key)) :
    ∃ r₁, r.Brought { choices := before } r₁ ∧
      plan.apply r result = (r₁, .error (.missingKey field)) := by
  have hheld : ∀ known ∈ Assoc.keys before, Assoc.holds r.facets known = true :=
    fun known hmem => (h.holds_facets known).2 (hknown known hmem)
  have hlost : Assoc.holds r.facets field = false :=
    Bool.eq_false_iff.2 fun hheld => hfield ((h.holds_facets field).1 hheld)
  have hbefore : (Assoc.keys before).Nodup := by
    have hkeys : Assoc.keys result.choices = Assoc.keys before ++ field :: Assoc.keys after := by
      rw [hsplit, Assoc.keys, List.map_append, List.map_cons]
      rfl
    rw [hkeys] at hchoices
    exact (List.nodup_append.1 hchoices).1
  refine ⟨_, Resolver.brought_offerAll hbefore hheld, ?_⟩
  unfold apply
  rw [hsplit, Resolver.offerAll_of_unknown hheld hlost]

/-- The end of a lookup that counts. In every state that is reached of every table, whatever the form
makes of written keys: a failure and a lookup without a result leave all values, sources and choices.
A result with choices of fields of the table only is written back as a whole, then its keys are
announced, and the lookup is applied. Otherwise the fault on the first field that the table does not
have is raised, with the choices before it replaced and nothing else. -/
theorem writeback_reaches (hr : plan.Reaches ends m r) {l : Lookup} (hfresh : r.isStale l = false) :
    (∀ cause, ∃ r' fault, r.Unwritten r' ∧ plan.complete r l (.error cause) = (r', .ok
      { trigger := l.ticket.trigger, value := l.ticket.value, status := .failed
        error := some fault })) ∧
    (∃ r', r.Unwritten r' ∧ plan.complete r l (.ok none) = (r', .ok
      { trigger := l.ticket.trigger, value := l.ticket.value, status := .skipped })) ∧
    ∀ result : LookupResult, (Assoc.keys result.values).Nodup → (Assoc.keys result.choices).Nodup →
      ((∀ field ∈ Assoc.keys result.choices, field ∈ plan.descriptors.map (·.key)) →
        ∃ r₁ r', r.Brought result r₁ ∧ plan.Announced (Assoc.keys result.values) r₁ r' ∧
          plan.complete r l (.ok (some result)) = (r', .ok
            { trigger := l.ticket.trigger, value := l.ticket.value, status := .applied })) ∧
      ∀ before field offered after, result.choices = before ++ (field, offered) :: after →
        (∀ known ∈ Assoc.keys before, known ∈ plan.descriptors.map (·.key)) →
        field ∉ plan.descriptors.map (·.key) →
        ∃ r', r.Brought { choices := before } r' ∧
          plan.complete r l (.ok (some result)) = (r', .error (.missingKey field)) := by
  have hfits : plan.Fits (r.without l) :=
    hr.fits.of_same rfl rfl rfl fun _ hl => (Resolver.mem_without.1 hl).1
  refine ⟨fun cause => ?_, ?_, fun result hvalues hchoices => ⟨fun hknown => ?_, ?_⟩⟩
  · have hunwritten : r.Unwritten (fail (r.without l) l cause).1 := by
      refine ⟨fun key => ?_, fun _ => rfl, rfl⟩
      obtain ⟨f, hf, hfind⟩ := find?_fail (r.without l) l cause key
      rw [hfind, Option.map_map]
      congr 1
      funext e
      exact Prod.ext (hf e).1 (hf e).2
    exact ⟨_, _, hunwritten, plan.complete_of_error hfresh cause⟩
  · exact ⟨r.without l, ⟨fun _ => rfl, fun _ => rfl, rfl⟩, plan.complete_of_none hfresh⟩
  · obtain ⟨r₁, hbrought, happly⟩ := apply_of_known hfits hvalues hchoices hknown
    have hannounced := plan.announced_propagates (Assoc.keys result.values) r₁
    exact ⟨r₁, _, hbrought.of_without, hannounced.log _, plan.complete_of_some hfresh happly⟩
  · intro before field offered after hsplit hknown hfield
    obtain ⟨r₁, hbrought, happly⟩ := apply_of_unknown hfits hchoices hsplit hknown hfield
    exact ⟨r₁, hbrought.of_without, plan.complete_of_refused hfresh happly⟩

/-- Choices for two fields. -/
def twoLists : LookupResult :=
  { choices := [("pick", [⟨.text "a", .text "a"⟩]), ("ghost", [⟨.text "b", .text "b"⟩])] }

/-- A table with one field, whose first load brings the choices of two. -/
def overreaching : Plan where
  descriptors := [{
    key := "pick", kind := .input, usual := .text "x"
    trigger := some {
      fetch := .scripted {
        name := "pick", key := "pick", skipIfBlank := none, failures := [], values := []
        choices := twoLists.choices }
      choiceKeys := ["pick"]
      prime := true } }]
  distinct := by decide
  react := Reaction.none

/-- The form of that table after its first load. -/
def loading : Resolver :=
  (overreaching.prime (overreaching.begun .empty) true).1

/-- The table is accepted, and its form comes to the first load. -/
theorem reaches_loading : overreaching.Reaches Lookup.EndsItself .empty loading :=
  .prime true (.start (overreaching.setUp_of_declared (by decide +kernel) .empty))

/-- The first load has issued one lookup. It counts, and it brings the choices of two fields. -/
theorem inFlight_loading : ∃ l, loading.inFlight = [l] ∧ loading.isStale l = false ∧
    (Ending.answered Fixture.empty.toCatalog).answer l = .ok (some twoLists) :=
  ⟨_, rfl, by decide +kernel, rfl⟩

/-- A result that keeps to the table is written back as a whole. -/
theorem writeback_loading :
    let result : LookupResult :=
      { values := [("pick", .text "a")], choices := [("pick", [⟨.text "a", .text "a"⟩])] }
    ∃ l ∈ loading.inFlight, loading.isStale l = false ∧
      ∃ r' outcome, overreaching.complete loading l (.ok (some result)) = (r', .ok outcome) ∧
        outcome.status = .applied ∧
        r'.model.find? "pick" = some { value := .text "a", source := .lookup } ∧
        r'.choices? "pick" = some [⟨.text "a", .text "a"⟩] := by
  intro result
  obtain ⟨l, hin, hfresh, -⟩ := inFlight_loading
  obtain ⟨-, -, hresult⟩ := writeback_reaches reaches_loading hfresh
  obtain ⟨hwhole, -⟩ := hresult result (by decide) (by decide)
  obtain ⟨r₁, r', hbrought, hannounced, hcomplete⟩ := hwhole (by decide)
  have hfree : ¬ overreaching.Ruled ["pick"] "pick" := by
    rintro ⟨d, hd, hrule, -⟩
    obtain rfl := Option.some.inj hd
    cases hrule
  have hentry := hannounced.entries "pick" (Reaction.none_spares "pick")
  have hchoices := hannounced.choices "pick" hfree
  refine ⟨l, hin ▸ .head _, hfresh, r', _, hcomplete, rfl, ?_, ?_⟩
  · rw [hentry, hbrought.written "pick" (.text "a") (.head _)]
    rfl
  · rw [hchoices]
    exact hbrought.offered "pick" _ (.head _)

/-- A lookup that counts and brings choices of a field that the table does not have is neither applied
nor does it fail: the fault on that field leaves the lookup, and the choices before it are replaced. -/
theorem halfway_loading : ∃ l ∈ loading.inFlight, loading.isStale l = false ∧
    ∃ r', overreaching.complete loading l
        ((Ending.answered Fixture.empty.toCatalog).answer l) = (r', .error (.missingKey "ghost")) ∧
      loading.choices? "pick" = some [] ∧ r'.choices? "pick" = some [⟨.text "a", .text "a"⟩] := by
  obtain ⟨l, hin, hfresh, hanswer⟩ := inFlight_loading
  have hfits : overreaching.Fits (loading.without l) :=
    reaches_loading.fits.of_same rfl rfl rfl fun _ hl => (Resolver.mem_without.1 hl).1
  have hsplit : twoLists.choices = [("pick", [⟨.text "a", .text "a"⟩])] ++
      ("ghost", [⟨.text "b", .text "b"⟩]) :: [] := rfl
  obtain ⟨r', hbrought, happly⟩ :=
    apply_of_unknown hfits (by decide) hsplit (by decide) (by decide)
  refine ⟨l, hin ▸ .head _, hfresh, r', ?_, rfl, hbrought.offered "pick" _ (.head _)⟩
  rw [hanswer]
  exact overreaching.complete_of_refused hfresh happly

end Plan

end SyncForm
