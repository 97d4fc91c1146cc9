import SyncForm.Proofs.Display
import SyncForm.Proofs.Validation

/-!
# Independent edits

An edit writes its own key and resets what lies below it in the chain of triggers, so two edits of
which neither key lies below the other write different keys. Each of them moves the same counters,
empties the same choices and asks the catalog the same question whether or not the other one has been
made before, and all that is derived is derived from the values. So the two edits may be made in
either order (`Template.change_commutes`).
-/

namespace SyncForm

/-- What a lookup asks for: its trigger, the value and the generation that it was issued with, and the
question to the catalog. -/
structure Enquiry where
  trigger : String
  value : Value
  generation : Nat
  query : Option Query

/-- The enquiry of a lookup. -/
def Lookup.enquiry (l : Lookup) : Enquiry where
  trigger := l.ticket.trigger
  value := l.ticket.value
  generation := l.ticket.generation
  query := l.fetch.query? l.snapshot

/-- Two resolvers reached from a third one come to the same: in all entries, choices, weights and
counters, and in what the lookups issued since then ask for. -/
structure Resolver.Confluent (start r r' : Resolver) : Prop where
  entries : ∀ key, r'.model.find? key = r.model.find? key
  choices : ∀ field, r'.choices? field = r.choices? field
  weights : ∀ field, r'.weight? field = r.weight? field
  counters : ∀ name, r'.generation? name = r.generation? name
  enquiries : ∃ issued issued', r.inFlight = start.inFlight ++ issued ∧
    r'.inFlight = start.inFlight ++ issued' ∧
    (issued'.map Lookup.enquiry).Perm (issued.map Lookup.enquiry)

namespace Plan

variable (plan : Plan)

/-- A key is beyond another one: it is not that key, and it is not reached from it over what triggers
produce. -/
def Beyond (key key' : String) : Prop :=
  key ≠ key' ∧ ¬ Relation.TransGen plan.Produces key key'

/-- Two keys are independent: each of them is beyond the other one. -/
def Independent (key key' : String) : Prop :=
  plan.Beyond key key' ∧ plan.Beyond key' key

/-! ## What an edit does -/

/-- The cascade of a key, if it is a trigger. -/
def cascadeOf (key : String) : List CascadeStep :=
  match plan.trigger? key with
  | some t => plan.cascade key t
  | none => []

/-- A key is reset by a change of another one just if it is reached from it. -/
theorem resets_cascadeOf {key other : String} :
    (plan.cascadeOf key).any (·.resets other) = true ↔
      other ≠ key ∧ Relation.TransGen plan.Produces key other := by
  unfold cascadeOf
  cases htrigger : plan.trigger? key with
  | some t => rw [← mem_resetKeys, plan.mem_resets_cascade htrigger]
  | none =>
    refine iff_of_false Bool.false_ne_true ?_
    rintro ⟨-, hpath⟩
    obtain ⟨lower, ⟨t, ht, -⟩, -⟩ := Relation.TransGen.head'_iff.1 hpath
    rw [htrigger] at ht
    cases ht

/-- By how much a change of a key moves a counter on. -/
def bump (key name : String) : Nat :=
  (plan.cascadeOf key).countP (·.supersedes name) +
    if key = name ∧ (plan.trigger? key).isSome = true then 1 else 0

/-- What the lookup asks for that a resolver has issued for a key. -/
def enquiries (r : Resolver) (key : String) : List Enquiry :=
  match plan.trigger? key with
  | some t => [{
      trigger := key, value := r.model.get key, generation := (r.generation? key).getD 0
      query := t.fetch.query? r.model.snapshot }]
  | none => []

/-- What an accepted change does: it writes its key, resets what is below it, empties choices, moves
counters on and issues the lookup of the key. -/
structure Edited (r : Resolver) (key : String) (value : Value) (r' : Resolver) : Prop where
  ready : r'.ready = true
  entries : ∀ other, r'.model.find? other =
    if (plan.cascadeOf key).any (·.resets other) then some { value := plan.usual other }
    else if key = other then
      some (((r.model.find? key).getD { value := .text "" }).setUser value)
    else r.model.find? other
  choices : ∀ field, plan.RuleFree field → r'.choices? field = (r.choices? field).map fun cs =>
    if (plan.cascadeOf key).any (·.empties field) then [] else cs
  counters : ∀ name, r'.generation? name = (r.generation? name).map (· + plan.bump key name)
  enquiries : ∃ issued, r'.inFlight = r.inFlight ++ issued ∧
    issued.map Lookup.enquiry = plan.enquiries r' key

variable {plan} {r : Resolver}

/-- A change that is accepted edits the resolver; a form that leaves its model alone adds nothing. -/
theorem edited_change (hreact : ∀ key, plan.react.Spares key) (hready : r.ready = true)
    {key : String} (hheld : r.model.holds key = true) (value : Value) {running : Bool}
    (htakes : plan.trigger? key = none ∨ running = true) :
    plan.Edited r key value (plan.change r key value running).1 := by
  cases htrigger : plan.trigger? key with
  | none =>
    have hplain : plan.cascadeOf key = [] := by rw [cascadeOf, htrigger]
    rw [plan.change_of_plain value running htrigger hready hheld]
    constructor
    case ready => exact hready
    case entries =>
      intro other
      rw [plan.find?_write (hreact other), hplain]
      rfl
    case choices =>
      intro field hfree
      rw [plan.choices?_write hfree, hplain]
      exact (Option.map_id' ..).symm
    case counters =>
      intro name
      have hbump : plan.bump key name = 0 := by simp [bump, hplain, htrigger]
      rw [hbump]
      exact (Option.map_id' ..).symm
    case enquiries => exact ⟨[], (List.append_nil _).symm, by rw [enquiries, htrigger]; rfl⟩
  | some t =>
    have hcascade : plan.cascadeOf key = plan.cascade key t := by rw [cascadeOf, htrigger]
    have hrunning : running = true := htakes.resolve_left (by simp [htrigger])
    obtain ⟨hin, -, hkept⟩ := plan.inFlight_rerun r key value t
    rw [hrunning, plan.change_of_trigger value htrigger hready hheld]
    constructor
    case ready => exact hkept.trans hready
    case entries =>
      intro other
      rw [plan.find?_rerun (hreact other), hcascade]
    case choices =>
      intro field hfree
      rw [plan.choices?_rerun hfree, hcascade]
    case counters =>
      intro name
      have hbump : plan.bump key name = (plan.cascade key t).countP (·.supersedes name) +
          if key = name then 1 else 0 := by
        simp [bump, hcascade, htrigger]
      rw [plan.generation?_rerun, hbump]
    case enquiries => exact ⟨[_], hin, by rw [enquiries, htrigger]; rfl⟩

/-- A change of a trigger without a loop is refused. -/
theorem change_of_idle (key : String) (value : Value) {running : Bool}
    (hidle : ¬ (plan.trigger? key = none ∨ running = true)) :
    (plan.change r key value running).1 = r := by
  rcases plan.change_cases r key value running with
    ⟨fault, hchange⟩ | ⟨hplain, -, -, -⟩ | ⟨-, -, hrunning, -, -, -⟩
  · rw [hchange]
  · exact absurd (.inl hplain) hidle
  · exact absurd (.inr hrunning) hidle

/-- A change drops no key and no lookup in flight. -/
theorem kept_change (hreact : plan.react.Keeps) (r : Resolver) (key : String) (value : Value)
    (running : Bool) :
    r.model.Sub (plan.change r key value running).1.model ∧
      ∃ issued, (plan.change r key value running).1.inFlight = r.inFlight ++ issued := by
  rcases plan.change_cases r key value running with
    ⟨fault, hchange⟩ | ⟨-, -, -, hchange⟩ | ⟨t, -, -, -, -, hchange⟩
  · rw [hchange]
    exact ⟨.refl _, [], (List.append_nil _).symm⟩
  · rw [hchange]
    exact ⟨plan.sub_write hreact r key value, [], (List.append_nil _).symm⟩
  · rw [hchange]
    exact ⟨plan.sub_rerun hreact r key value t, _, (plan.inFlight_rerun r key value t).1⟩

/-! ## Two edits -/

section

variable {key key' : String} {value value' : Value} {r₁ r₂ r₁₂ r₂₁ : Resolver}

/-- A change resets no key beyond its own. -/
theorem Beyond.resets (h : plan.Beyond key key') :
    (plan.cascadeOf key).any (·.resets key') = false :=
  Bool.eq_false_iff.2 fun hresets => h.2 (plan.resets_cascadeOf.1 hresets).2

/-- A change leaves the entry of a key beyond its own. -/
theorem Edited.entry (h : plan.Edited r key value r₁) (hbeyond : plan.Beyond key key') :
    r₁.model.find? key' = r.model.find? key' := by
  rw [h.entries, hbeyond.resets, if_neg Bool.false_ne_true, if_neg hbeyond.1]

/-- A change leaves the counter of a key beyond its own. -/
theorem Edited.counter (h : plan.Edited r key value r₁) (hbeyond : plan.Beyond key key') :
    r₁.generation? key' = r.generation? key' := by
  have hbump : plan.bump key key' = 0 := by
    unfold bump
    rw [if_neg fun heq => hbeyond.1 heq.1]
    unfold cascadeOf
    cases htrigger : plan.trigger? key with
    | none => rfl
    | some t =>
      have hkept : ¬ (key' ∈ resetKeys (plan.cascade key t) ∧ (plan.trigger? key').isSome = true) :=
        fun hreset => hbeyond.2 ((plan.mem_resets_cascade htrigger key').1 hreset.1).2
      exact (plan.countP_supersedes_cascade key').trans (if_neg hkept)
  rw [h.counters, hbump]
  exact Option.map_id' ..

variable (h₁ : plan.Edited r key value r₁) (h₁₂ : plan.Edited r₁ key' value' r₁₂)
  (h₂ : plan.Edited r key' value' r₂) (h₂₁ : plan.Edited r₂ key value r₂₁)

include h₁ h₁₂ h₂ h₂₁

/-- Independent edits leave the same entries in either order. -/
theorem Edited.entries_comm (hind : plan.Independent key key') (other : String) :
    r₂₁.model.find? other = r₁₂.model.find? other := by
  have hself : ∀ k, (plan.cascadeOf k).any (·.resets k) = false := fun k =>
    Bool.eq_false_iff.2 fun hresets => (plan.resets_cascadeOf.1 hresets).1 rfl
  rw [h₂₁.entries, h₁₂.entries, h₂.entry hind.2, h₁.entry hind.1, h₂.entries, h₁.entries]
  by_cases hkey : key = other
  · subst hkey
    simp [hself, hind.2.resets, hind.2.1]
  · by_cases hkey' : key' = other
    · subst hkey'
      simp [hself, hind.1.resets, hkey]
    · -- A key that both cascades reset is reset to the same default.
      rw [if_neg hkey, if_neg hkey', if_neg hkey, if_neg hkey']
      split <;> split <;> rfl

/-- Two edits empty the same choices in either order. -/
theorem Edited.choices_comm {field : String} (hfree : plan.RuleFree field) :
    r₂₁.choices? field = r₁₂.choices? field := by
  rw [h₂₁.choices field hfree, h₁₂.choices field hfree, h₂.choices field hfree,
    h₁.choices field hfree, Option.map_map, Option.map_map]
  congr 1
  funext cs
  simp only [Function.comp_apply]
  split <;> split <;> rfl

/-- Two edits move every counter by the same amount in either order. -/
theorem Edited.counters_comm (name : String) : r₂₁.generation? name = r₁₂.generation? name := by
  rw [h₂₁.counters, h₁₂.counters, h₂.counters, h₁.counters, Option.map_map, Option.map_map]
  congr 1
  funext n
  simp only [Function.comp_apply]
  omega

omit h₁ h₁₂ h₂ h₂₁

/-- The lookups that two edits issue come after those of before. -/
theorem Edited.enquiries_append (h : plan.Edited r key value r₁)
    (h' : plan.Edited r₁ key' value' r₁₂) :
    ∃ issued, r₁₂.inFlight = r.inFlight ++ issued ∧
      issued.map Lookup.enquiry = plan.enquiries r₁ key ++ plan.enquiries r₁₂ key' := by
  obtain ⟨first, hfirst, hasked⟩ := h.enquiries
  obtain ⟨second, hsecond, hasked'⟩ := h'.enquiries
  refine ⟨first ++ second, ?_, ?_⟩
  · rw [hsecond, hfirst, List.append_assoc]
  · rw [List.map_append, hasked, hasked']

end

end Plan

namespace Template

variable (disabled : List String) {react : Reaction} {m : Model} {r : Resolver}

/-- The cascade of the key of a rung. -/
theorem cascadeOf_key (side : Side) (rung : Rung) :
    (plan disabled react).cascadeOf (rung.key side) = rung.steps side := by
  unfold Plan.cascadeOf
  rw [trigger?_key]
  exact cascade_rung disabled react side rung

/-- A rung is reached from those above it. -/
theorem produces_above {side : Side} {upper rung : Rung} (h : upper.depth < rung.depth) :
    Relation.TransGen (plan disabled react).Produces (upper.key side) (rung.key side) := by
  have hresets : ((plan disabled react).cascadeOf (upper.key side)).any
      (·.resets (rung.key side)) = true := by
    rw [cascadeOf_key, Rung.resets_key]
    exact decide_eq_true ⟨rfl, h⟩
  exact ((plan disabled react).resets_cascadeOf.1 hresets).2

/-- With a rung all rungs above it are beyond a key. -/
theorem beyond_above {side : Side} {upper rung : Rung} {key : String}
    (hbeyond : (plan disabled react).Beyond key (rung.key side))
    (hdepth : upper.depth ≤ rung.depth) :
    (plan disabled react).Beyond key (upper.key side) := by
  rcases Nat.lt_or_eq_of_le hdepth with habove | hsame
  · have hpath : Relation.TransGen (plan disabled react).Produces (upper.key side)
        (rung.key side) := produces_above disabled habove
    constructor
    · rintro rfl
      exact hbeyond.2 hpath
    · intro hreached
      exact hbeyond.2 (hreached.trans hpath)
  · obtain rfl := Rung.depth_inj hsame
    exact hbeyond

/-- The lookup of a key asks for the same after an edit of a key that it is beyond. -/
theorem enquiries_eq {key key' : String} {value value' : Value} {r₁ r₂ r₂₁ : Resolver}
    (h₁ : (plan disabled react).Edited r key value r₁)
    (h₂ : (plan disabled react).Edited r key' value' r₂)
    (h₂₁ : (plan disabled react).Edited r₂ key value r₂₁)
    (hbeyond : (plan disabled react).Beyond key' key) :
    (plan disabled react).enquiries r₂₁ key = (plan disabled react).enquiries r₁ key := by
  unfold Plan.enquiries
  cases htrigger : (plan disabled react).trigger? key with
  | none => rfl
  | some t =>
    obtain ⟨side, rung, rfl, rfl⟩ := trigger?_eq_some disabled react htrigger
    have hentry : ∀ other : Rung, other.depth ≤ rung.depth →
        r₂₁.model.find? (other.key side) = r₁.model.find? (other.key side) := by
      intro other hdepth
      rw [h₂₁.entries, h₁.entries, h₂.entry hbeyond,
        h₂.entry (beyond_above disabled hbeyond hdepth)]
    have hvalue : ∀ other : Rung, other.depth ≤ rung.depth →
        r₂₁.model.get (other.key side) = r₁.model.get (other.key side) := by
      exact fun other hdepth => Model.get_congr (Model.value?_congr (hentry other hdepth))
    have hcounter : r₂₁.generation? (rung.key side) = r₁.generation? (rung.key side) := by
      rw [h₂₁.counters, h₁.counters, h₂.counter hbeyond]
    have hquery : (rung.trigger side).fetch.query? r₂₁.model.snapshot =
        (rung.trigger side).fetch.query? r₁.model.snapshot := by
      refine (Rung.fetch_congr rung side fun other hdepth => ?_).1
      rw [Snapshot.get_snapshot, Snapshot.get_snapshot, hvalue other hdepth]
    dsimp only
    rw [hvalue rung (Nat.le_refl _), hcounter, hquery]

/-- In the states that the task form reaches with the same values every field has the same weight. -/
theorem weight?_eq (hreact : ∀ key ∈ Keys.layout, react.Spares key)
    {ends : Lookup → Except Fault (Option LookupResult) → Prop} {m' : Model} {r' : Resolver}
    (h : (plan disabled react).Reaches ends m r) (h' : (plan disabled react).Reaches ends m' r')
    (hvalues : ∀ key, r'.model.value? key = r.model.value? key) (field : String) :
    r'.weight? field = r.weight? field := by
  unfold Resolver.weight?
  by_cases hfield : field ∈ (plan disabled react).descriptors.map (·.key)
  · obtain ⟨d, hd, rfl⟩ := List.mem_map.1 hfield
    obtain ⟨f, hf, hweight⟩ := Plan.weight_reaches hreact h hd
    obtain ⟨f', hf', hweight'⟩ := Plan.weight_reaches hreact h' hd
    have hlaw := (Derived.weight d (Descriptor.of_checkDeclarations (h.checked d hd)).1).congr
      r.model r'.model fun key _ => hvalues key
    rw [(Resolver.facet_eq_ok h.fits.ready).1 hf, (Resolver.facet_eq_ok h'.fits.ready).1 hf']
    exact congrArg some (hweight'.trans (hlaw.trans hweight.symm))
  · have hnone : ∀ {s : Resolver}, (plan disabled react).Fits s →
        Assoc.valueOf? s.facets field = none := by
      intro s hs
      rw [← Option.not_isSome_iff_eq_none, Assoc.isSome_valueOf?, hs.fields]
      exact hfield
    rw [hnone h.fits, hnone h'.fits]

/-- Independent edits commute. In every state that the task form reaches, two edits of keys of which
neither is the other one nor below it in the chain of triggers lead to the same values, sources,
errors, choices, weights and counters in either order, and issue lookups that ask the same. -/
theorem change_commutes (hr : (plan disabled Reaction.none).Reaches Lookup.EndsItself m r)
    {key key' : String} (hheld : r.model.holds key = true) (hheld' : r.model.holds key' = true)
    (hind : (plan disabled Reaction.none).Independent key key') (value value' : Value)
    (running : Bool) :
    let plan := plan disabled Reaction.none
    r.Confluent (plan.change (plan.change r key value running).1 key' value' running).1
      (plan.change (plan.change r key' value' running).1 key value running).1 := by
  intro plan
  have hkeeps : plan.react.Keeps := Reaction.none_listsOnly.keeps
  obtain ⟨hsub, issued, hissued⟩ := plan.kept_change hkeeps r key value running
  obtain ⟨hsub', issued', hissued'⟩ := plan.kept_change hkeeps r key' value' running
  by_cases htakes : plan.trigger? key = none ∨ running = true
  · by_cases htakes' : plan.trigger? key' = none ∨ running = true
    · have hspares : ∀ key, plan.react.Spares key := Reaction.none_spares
      have h₁ := Plan.edited_change hspares hr.fits.ready hheld value htakes
      have h₂ := Plan.edited_change hspares hr.fits.ready hheld' value' htakes'
      have h₁₂ := Plan.edited_change hspares h₁.ready (hsub.holds hheld') value' htakes'
      have h₂₁ := Plan.edited_change hspares h₂.ready (hsub'.holds hheld) value htakes
      have hentries := h₁.entries_comm h₁₂ h₂ h₂₁ hind
      have hvalues := fun key => Model.value?_congr (hentries key)
      have hr₁₂ := (hr.change key value running).change key' value' running
      have hr₂₁ := (hr.change key' value' running).change key value running
      constructor
      case entries => exact hentries
      case choices =>
        intro field
        by_cases hmode : field = Keys.writeMode
        · -- The write modes follow the type of the target.
          subst hmode
          have htarget : Reaction.none.Spares Keys.targetType := Reaction.none_spares _
          have hrule := build_writeModeRule (hvalues Keys.targetType)
          exact (modes_reaches disabled htarget hr₂₁).trans
            ((congrArg some hrule).trans (modes_reaches disabled htarget hr₁₂).symm)
        · exact h₁.choices_comm h₁₂ h₂ h₂₁ (ruleFree disabled Reaction.none hmode)
      case weights =>
        exact weight?_eq disabled (fun key _ => Reaction.none_spares key) hr₁₂ hr₂₁ hvalues
      case counters => exact h₁.counters_comm h₁₂ h₂ h₂₁
      case enquiries =>
        obtain ⟨issued, hin, hasked⟩ := h₁.enquiries_append h₁₂
        obtain ⟨issued', hin', hasked'⟩ := h₂.enquiries_append h₂₁
        refine ⟨issued, issued', hin, hin', ?_⟩
        rw [hasked, hasked', enquiries_eq disabled h₁ h₂ h₂₁ hind.2,
          enquiries_eq disabled h₂ h₁ h₁₂ hind.1]
        exact List.perm_append_comm
    · rw [Plan.change_of_idle key' value' htakes', Plan.change_of_idle key' value' htakes']
      exact ⟨fun _ => rfl, fun _ => rfl, fun _ => rfl, fun _ => rfl, issued, issued, hissued,
        hissued, .refl _⟩
  · rw [Plan.change_of_idle key value htakes, Plan.change_of_idle key value htakes]
    exact ⟨fun _ => rfl, fun _ => rfl, fun _ => rfl, fun _ => rfl, issued', issued', hissued',
      hissued', .refl _⟩

/-- The rungs of different sides are independent. -/
theorem independent_sides {react : Reaction} {side side' : Side} (h : side ≠ side')
    (rung rung' : Rung) : (plan disabled react).Independent (rung.key side) (rung'.key side') := by
  have hbeyond : ∀ {s s' : Side}, s ≠ s' → ∀ upper lower : Rung,
      (plan disabled react).Beyond (upper.key s) (lower.key s') := by
    intro s s' hsides upper lower
    have hne : upper.key s ≠ lower.key s' := fun hkey => hsides (key_inj.1 hkey).1
    refine ⟨hne, fun hpath => ?_⟩
    have hresets := (plan disabled react).resets_cascadeOf.2 ⟨hne.symm, hpath⟩
    rw [cascadeOf_key, Rung.resets_key] at hresets
    exact hsides (of_decide_eq_true hresets).1
  exact ⟨hbeyond h rung rung', hbeyond h.symm rung' rung⟩

/-- A change of the instance of the source and one of the type of the target commute at the start. -/
theorem change_commutes_begun :
    let plan := plan [] Reaction.none
    let r := plan.begun .empty
    r.model.holds Keys.sourceInstance = true ∧ r.model.holds Keys.targetType = true ∧
      r.Confluent
        (plan.change (plan.change r Keys.sourceInstance (.text "1") true).1 Keys.targetType
          (.text Datasource.hive) true).1
        (plan.change (plan.change r Keys.targetType (.text Datasource.hive) true).1
          Keys.sourceInstance (.text "1") true).1 := by
  intro plan r
  have hreaches : plan.Reaches Lookup.EndsItself .empty r := .start (setUp_plan [] Reaction.none _)
  have htracked := tracked_begun [] Reaction.none .empty
  have hsource : r.model.holds Keys.sourceInstance = true := holds_model _ htracked .source .place
  have htarget : r.model.holds Keys.targetType = true := holds_model _ htracked .target .type
  have hind : plan.Independent (Rung.place.key .source) (Rung.type.key .target) :=
    independent_sides [] (by decide) .place .type
  exact ⟨hsource, htarget,
    change_commutes [] hreaches hsource htarget hind (.text "1") (.text Datasource.hive) true⟩

end Template

end SyncForm
