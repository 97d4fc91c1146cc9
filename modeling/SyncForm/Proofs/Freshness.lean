import SyncForm.Proofs.Start

/-!
# What lookups brought is up to date

In every state that a run of the task form reaches, the choices that a field of a chain offers and
the columns and partitions that a lookup brought are answers of a catalog to the question that the
current values pose (`Template.upToDate_run`). `Resolver.Backed` is the invariant, stated for a rung
and the rung below it; a step keeps it because what it changes at a rung it clears below that rung,
and because a lookup that counts was issued for the current values.
-/

namespace SyncForm

/-- One of the catalogs asked was asked just what the lookup of a rung asks for the values of a
model, and its answer makes the lookup bring a result. -/
def Brings (asked : List (Query × Catalog)) (m : Model) (side : Side) (rung : Rung)
    (result : LookupResult) : Prop :=
  ∃ query catalog, (rung.trigger side).fetch.query? m.snapshot = some query ∧
    (query, catalog) ∈ asked ∧ (rung.trigger side).fetch.run m.snapshot catalog = .ok (some result)

/-- What was brought stays so while more is asked and the values down to the rung stay. -/
theorem Brings.mono {asked asked' : List (Query × Catalog)} {m m' : Model} {side : Side}
    {rung : Rung} {result : LookupResult} (h : Brings asked m side rung result)
    (hasked : ∀ x ∈ asked, x ∈ asked') (hsame : SameDownTo side rung m m') :
    Brings asked' m' side rung result := by
  obtain ⟨query, catalog, hquery, hmem, hrun⟩ := h
  obtain ⟨hq, hr⟩ := hsame.fetch_eq
  exact ⟨query, catalog, hq.trans hquery, hasked _ hmem, (hr catalog).trans hrun⟩

namespace Resolver

/-- A lookup that counts brings an answer to the question that the current values pose. -/
theorem Tracked.brings {r : Resolver} (h : r.Tracked) {number : Nat} {l : Lookup}
    (hl : r.lookup? number = some l) {side : Side} {rung : Rung} (hrung : l.OfRung side rung)
    (hlatest : r.Latest l) {ending : Ending} {result : LookupResult}
    (hanswer : ending.answer l = .ok (some result)) (asked : List (Query × Catalog)) :
    Brings (asked ++ (r.asks? (.complete number ending)).toList) r.model side rung result := by
  obtain ⟨catalog, rfl, hrun⟩ := Ending.answer_eq_some hanswer
  obtain ⟨query, hquery⟩ := Fetch.query?_of_run hrun
  have hasks : r.asks? (.complete number (.answered catalog)) = some (query, catalog) := by
    simp only [asks?, hl, Option.bind_some, hquery, Option.map_some]
  obtain ⟨hq, hr⟩ := h.fetch_eq (lookup?_eq_some hl).1 hrung hlatest
  exact ⟨query, catalog, hq.symm.trans hquery, by simp [hasks], (hr catalog).symm.trans hrun⟩

/-- Choices and lookup values are backed by what a catalog was asked for the current values. -/
structure Backed (asked : List (Query × Catalog)) (r : Resolver) : Prop where
  offered : ∀ side (upper rung : Rung), rung.depth = upper.depth + 1 → ∀ choices,
    r.choices? (rung.key side) = some choices →
      choices = [] ∨ Brings asked r.model side upper { choices := [(rung.key side, choices)] }
  listed : ∀ (side : Side) key e, key = side.key ∨ key = side.partitionsKey →
    r.model.find? key = some e → e.source = .lookup →
      ∃ t, Brings asked r.model side .table (tableResult side t) ∧
        (key, e.value) ∈ (tableResult side t).values

/-- A step keeps choices and lookup values backed if it empties the choices and resets the lists
below every rung at which it changes a value. -/
theorem Backed.mono {asked asked' : List (Query × Catalog)} {r r' : Resolver}
    (h : r.Backed asked) (hasked : ∀ x ∈ asked, x ∈ asked')
    (hoffered : ∀ side (upper rung : Rung), rung.depth = upper.depth + 1 → ∀ choices,
      r'.choices? (rung.key side) = some choices → choices = [] ∨
        (r.choices? (rung.key side) = some choices ∧ SameDownTo side upper r.model r'.model))
    (hlisted : ∀ (side : Side) key e', key = side.key ∨ key = side.partitionsKey →
      r'.model.find? key = some e' → e'.source = .lookup →
        SameDownTo side .table r.model r'.model ∧
          ∃ e, r.model.find? key = some e ∧ e.source = .lookup ∧ e'.value = e.value) :
    r'.Backed asked' where
  offered side upper rung hdepth choices hchoices := by
    rcases hoffered side upper rung hdepth choices hchoices with hnil | ⟨hbefore, hsame⟩
    · exact .inl hnil
    · exact (h.offered side upper rung hdepth choices hbefore).imp id (·.mono hasked hsame)
  listed side key e' hkey hfind hsource := by
    obtain ⟨hsame, e, hbefore, hlookup, hvalue⟩ := hlisted side key e' hkey hfind hsource
    obtain ⟨t, hbrings, hmem⟩ := h.listed side key e hkey hbefore hlookup
    exact ⟨t, hbrings.mono hasked hsame, hvalue ▸ hmem⟩

/-- What is backed stays so where neither the model nor the fields change. -/
theorem Backed.of_eq {asked asked' : List (Query × Catalog)} {r r' : Resolver}
    (h : r.Backed asked) (hasked : ∀ x ∈ asked, x ∈ asked') (hmodel : r'.model = r.model)
    (hfacets : r'.facets = r.facets) : r'.Backed asked' := by
  refine h.mono hasked (fun side upper rung _ choices hchoices => .inr ⟨?_, ?_⟩)
    (fun side key e' _ hfind hsource => ⟨?_, e', ?_, hsource, rfl⟩)
  · rwa [choices?, hfacets] at hchoices
  · intro other _
    rw [hmodel]
  · intro other _
    rw [hmodel]
  · rwa [hmodel] at hfind

/-- Offering what the lookup of the rung above brings keeps choices and lookup values backed. -/
theorem Backed.offer {asked : List (Query × Catalog)} {r : Resolver} (h : r.Backed asked)
    {side : Side} {rung : Rung} {choices : List Choice}
    (hbrings : ∀ upper : Rung, rung.depth = upper.depth + 1 →
      Brings asked r.model side upper { choices := [(rung.key side, choices)] }) :
    (r.offer (rung.key side) choices).Backed asked where
  offered side' upper below hdepth cs hcs := by
    rw [choices?_offer] at hcs
    split at hcs
    · next hkey =>
      obtain ⟨rfl, rfl⟩ := Template.key_inj.1 hkey
      obtain ⟨_, -, rfl⟩ := Option.map_eq_some_iff.1 hcs
      exact .inr (hbrings upper hdepth)
    · exact h.offered side' upper below hdepth cs hcs
  listed := h.listed

end Resolver

namespace Template

variable (disabled : List String) {asked : List (Query × Catalog)} {r : Resolver}

/-- Writing a key that is no trigger keeps choices and lookup values backed. -/
theorem backed_write (h : r.Backed asked) {key : String} (value : Value)
    (hplain : (plan disabled Reaction.none).trigger? key = none) :
    ((plan disabled Reaction.none).write r key value).Backed asked := by
  have hsame : ∀ side rung, SameDownTo side rung r.model
      ((plan disabled Reaction.none).write r key value).model :=
    fun side _ other _ =>
      value?_write_key disabled Reaction.none_listsOnly r value hplain side other
  refine h.mono (fun _ hx => hx) (fun side upper rung _ choices hchoices => .inr ⟨?_, hsame _ _⟩)
    (fun side k e' _ hfind hsource => ⟨hsame _ _, ?_⟩)
  · rwa [Plan.choices?_write _ (ruleFree_key disabled _ side rung)] at hchoices
  · rw [Plan.find?_write _ (Reaction.none_spares k)] at hfind
    split at hfind
    · cases hfind
      cases hsource
    · exact ⟨e', hfind, hsource, rfl⟩

/-- A changed rung keeps choices and lookup values backed. -/
theorem backed_rerunKey (h : r.Backed asked) (side : Side) (rung : Rung) (value : Value) :
    (rerunKey disabled r side rung value Reaction.none).Backed asked := by
  have hnone := Reaction.none_listsOnly
  refine h.mono (fun _ hx => hx) (fun side' upper below hdepth choices hchoices => ?_)
    (fun side' k e' hk hfind hsource => ?_)
  · rw [choices?_rerunKey] at hchoices
    obtain ⟨cs, hcs, hempty⟩ := Option.map_eq_some_iff.1 hchoices
    by_cases habove : Rung.Above side rung side' below
    · rw [if_pos habove] at hempty
      exact .inl hempty.symm
    · rw [if_neg habove] at hempty
      subst hempty
      refine .inr ⟨hcs, fun other hother => ?_⟩
      -- The changed rung is not above `below`, so neither at `upper` nor above it.
      rw [value?_rerunKey disabled r side rung value hnone, if_neg, if_neg]
      · rintro ⟨rfl, rfl⟩
        exact habove ⟨rfl, by omega⟩
      · rintro ⟨rfl, hlt⟩
        exact habove ⟨rfl, by omega⟩
  · rw [Plan.find?_rerun _ (Reaction.none_spares k), cascade_rung] at hfind
    have hresets : (rung.steps side).any (·.resets k) = decide (side = side') := by
      rcases hk with rfl | rfl
      · exact (Rung.resets_lists side side' rung).1
      · exact (Rung.resets_lists side side' rung).2
    have hne : rung.key side ≠ k := by
      rcases hk with rfl | rfl
      · exact (rung.unlisted side side').1
      · exact (rung.unlisted side side').2
    rw [hresets, if_neg hne] at hfind
    by_cases hside : side = side'
    · rw [if_pos (decide_eq_true hside)] at hfind
      cases hfind
      cases hsource
    · rw [if_neg (by simp [hside])] at hfind
      refine ⟨fun other _ => ?_, e', hfind, hsource, rfl⟩
      rw [value?_rerunKey disabled r side rung value hnone, if_neg (fun h => hside h.1),
        if_neg (fun h => hside h.1)]

/-- Bringing the lists of a table keeps choices and lookup values backed. -/
theorem backed_bring (h : r.Backed asked) {side : Side} {t : TableColumns}
    (hbrings : Brings asked r.model side .table (tableResult side t)) :
    ((plan disabled Reaction.none).bring r side t).Backed asked := by
  have hsame : ∀ side' rung, SameDownTo side' rung r.model
      ((plan disabled Reaction.none).bring r side t).model := by
    intro side' _ other _
    have hunlisted := other.unlisted side' side
    exact (plan disabled Reaction.none).value?_bring (Reaction.none_spares _) r side t hunlisted.1
      hunlisted.2
  refine ⟨fun side' upper below hdepth cs hcs => ?_, fun side' k e hk hfind hsource => ?_⟩
  · rw [Plan.choices?_bring _ (ruleFree_key disabled _ side' below)] at hcs
    exact (h.offered side' upper below hdepth cs hcs).imp id (·.mono (fun _ hx => hx) (hsame _ _))
  · have hmodel : ((plan disabled Reaction.none).bring r side t).model =
        (r.model.setLookup side.key (.list t.records)).setLookup side.partitionsKey
          (.list (t.placeholders.map .text)) := rfl
    simp only [hmodel, Model.setLookup, Model.find?_write] at hfind
    split at hfind
    · next hpartitions =>
      obtain rfl : side = side' := by
        rcases hk with rfl | rfl
        · exact absurd hpartitions (side.partitionsKey_ne_key side')
        · cases side <;> cases side' <;> first | rfl | exact absurd hpartitions (by decide)
      cases hfind
      subst hpartitions
      exact ⟨t, hbrings.mono (fun _ hx => hx) (hsame _ _), .tail _ (.head _)⟩
    · split at hfind
      · next hcolumns =>
        obtain rfl : side = side' := by
          rcases hk with rfl | rfl
          · cases side <;> cases side' <;> first | rfl | exact absurd hcolumns (by decide)
          · exact absurd hcolumns.symm (side'.partitionsKey_ne_key side)
        cases hfind
        subst hcolumns
        exact ⟨t, hbrings.mono (fun _ hx => hx) (hsame _ _), .head _⟩
      · obtain ⟨t', hbefore, hmem⟩ := h.listed side' k e hk hfind hsource
        exact ⟨t', hbefore.mono (fun _ hx => hx) (hsame _ _), hmem⟩

/-- The end of a lookup keeps choices and lookup values backed. -/
theorem backed_complete (htracked : r.Tracked) (h : r.Backed asked) {number : Nat} {l : Lookup}
    (hl : r.lookup? number = some l) (ending : Ending) :
    ((plan disabled Reaction.none).complete r l (ending.answer l)).1.Backed
      (asked ++ (r.asks? (.complete number ending)).toList) := by
  have hin := (Resolver.lookup?_eq_some hl).1
  have hasked : (r.without l).Backed (asked ++ (r.asks? (.complete number ending)).toList) :=
    h.of_eq (fun _ hx => List.mem_append_left _ hx) rfl rfl
  have hends := complete_cases disabled Reaction.none (htracked.known l hin)
    (holds_facets r htracked) ending
  generalize (plan disabled Reaction.none).complete r l (ending.answer l) = done at hends ⊢
  cases hends with
  | stale => exact hasked.of_eq (fun _ hx => hx) rfl rfl
  | failed _ cause _ =>
    refine hasked.mono (fun _ hx => hx)
      (fun side upper rung _ choices hchoices => .inr ⟨hchoices, fun other _ => ?_⟩)
      (fun side k e' _ hfind hsource => ⟨fun other _ => ?_, ?_⟩)
    · exact Plan.value?_fail (r.without l) l cause (other.key side)
    · exact Plan.value?_fail (r.without l) l cause (other.key side)
    · obtain ⟨f, hf, hmap⟩ := Plan.find?_fail (r.without l) l cause k
      obtain ⟨e, he, rfl⟩ := Option.map_eq_some_iff.1 (hmap.symm.trans hfind)
      exact ⟨e, he, (hf e).2.symm.trans hsource, (hf e).1⟩
  | skipped => exact hasked
  | offered hfresh side rung choices hfills hanswer =>
    have hlatest := Resolver.latest_of_isStale hfresh
    refine (hasked.offer fun upper hdepth => ?_).of_eq (fun _ hx => hx) rfl rfl
    rcases hfills with ⟨-, rfl⟩ | ⟨upper', hrung, hdepth'⟩
    · cases hdepth
    · obtain rfl : upper' = upper := by
        cases upper <;> cases upper' <;> simp_all [Rung.depth]
      exact htracked.brings hl hrung hlatest hanswer asked
  | brought hfresh side t hrung hanswer =>
    have hbrings := htracked.brings hl hrung (Resolver.latest_of_isStale hfresh) hanswer asked
    exact (backed_bring disabled hasked hbrings).of_eq (fun _ hx => hx) rfl rfl

/-- A step keeps choices and lookup values backed by what was asked so far. -/
theorem backed_take (htracked : r.Tracked) (h : r.Backed asked) (step : Step) :
    ((plan disabled Reaction.none).take r step).Backed (asked ++ (r.asks? step).toList) := by
  have hasked : r.Backed (asked ++ (r.asks? step).toList) :=
    h.of_eq (fun _ hx => List.mem_append_left _ hx) rfl rfl
  have htaken := (plan disabled Reaction.none).take_cases r step
  generalize (plan disabled Reaction.none).take r step = r' at htaken ⊢
  cases htaken with
  | refused | absent => exact hasked
  | written key value _ hplain _ => exact backed_write disabled hasked value hplain
  | rerun key value trigger htrigger _ =>
    obtain ⟨side, rung, rfl, rfl⟩ := trigger?_eq_some disabled _ htrigger
    exact backed_rerunKey disabled hasked side rung value
  | primed running =>
    obtain ⟨hmodel, hfacets, -⟩ := (plan disabled Reaction.none).prime_model r running
    exact hasked.of_eq (fun _ hx => hx) hmodel hfacets
  | ended number ending l hl => exact backed_complete disabled htracked h hl ending

/-- A run keeps choices and lookup values backed by what was asked so far. -/
theorem backed_run (htracked : r.Tracked) (h : r.Backed asked) (steps : List Step) :
    ((plan disabled Reaction.none).run r steps).Backed
      (asked ++ (plan disabled Reaction.none).asked r steps) := by
  induction steps generalizing r asked with
  | nil => exact h.of_eq (fun _ hx => List.mem_append_left _ hx) rfl rfl
  | cons step rest ih =>
    have hstep := backed_take disabled htracked h step
    have hrest := ih (tracked_take disabled Reaction.none_listsOnly htracked step) hstep
    rwa [List.append_assoc] at hrest

/-! ## What the user sees -/

/-- Job values are the user's or defaults, not what a lookup brought. -/
theorem source_begun (values : Assoc Value) {key : String} {e : Entry}
    (h : ((plan disabled Reaction.none).begun (Model.ofMembers values)).model.find? key = some e) :
    e.source ≠ .lookup := by
  rw [Plan.find?_begun] at h
  rcases Option.or_eq_some_iff.1 h with hgiven | ⟨-, hdefault⟩
  · have hmap : (Model.ofMembers values).find? key =
        (Assoc.valueOf? (Assoc.putAll [] (leavesOfMembers "" values)) key).map
          fun value => { value, source := .user } :=
      Assoc.valueOf?_map _ (fun _ value => ({ value, source := .user } : Entry)) key
    obtain ⟨value, -, rfl⟩ := Option.map_eq_some_iff.1 (hmap.symm.trans hgiven)
    simp
  · split at hdefault
    · cases hdefault
      simp
    · cases hdefault

/-- At the start no field offers choices and no value comes from a lookup. -/
theorem backed_begun (values : Assoc Value) :
    ((plan disabled Reaction.none).begun (Model.ofMembers values)).Backed [] where
  offered side upper rung _ choices hchoices := by
    rw [choices?_begun] at hchoices
    exact .inl (Option.some.inj hchoices).symm
  listed side key e _ hfind hsource := absurd hsource (source_begun disabled values hfind)

end Template

/-- What the fields of both chains offer, and what lookups have written, are answers to questions
about the current values. -/
structure UpToDate (asked : List (Query × Catalog)) (r : Resolver) : Prop where
  instances : ∀ side : Side, ∃ facet, r.facet side.instanceKey = .ok facet ∧
    (facet.choices = [] ∨ ∃ catalog is,
      (.instances (r.model.get side.typeKey), catalog) ∈ asked ∧
      catalog.instances (r.model.get side.typeKey) = .ok is ∧
      facet.choices = Fetch.instanceChoices is)
  tables : ∀ side : Side, ∃ facet, r.facet side.tableKey = .ok facet ∧
    (facet.choices = [] ∨ ∃ catalog ts,
      (.tables (.text (r.model.get side.instanceKey).plain), catalog) ∈ asked ∧
      catalog.tables (.text (r.model.get side.instanceKey).plain) = .ok ts ∧
      facet.choices = Fetch.tableChoices ts)
  columns : ∀ (side : Side) e, r.model.find? side.key = some e → e.source = .lookup →
    ∃ catalog t, (.columns (.text (r.model.get side.instanceKey).plain)
        (r.model.get side.tableKey), catalog) ∈ asked ∧
      catalog.columns (.text (r.model.get side.instanceKey).plain) (r.model.get side.tableKey) =
        .ok t ∧ e.value = .list t.records
  partitions : ∀ (side : Side) e, r.model.find? side.partitionsKey = some e → e.source = .lookup →
    ∃ catalog t, (.columns (.text (r.model.get side.instanceKey).plain)
        (r.model.get side.tableKey), catalog) ∈ asked ∧
      catalog.columns (.text (r.model.get side.instanceKey).plain) (r.model.get side.tableKey) =
        .ok t ∧ e.value = .list (t.placeholders.map .text)
  sink : Datasource.isSingleSink (r.model.get Keys.targetType) = true →
    ∃ facet, r.facet Keys.targetTable = .ok facet ∧ facet.choices = []

/-- A result that is one list of choices determines it. -/
theorem LookupResult.choices_inj {field field' : String} {choices choices' : List Choice}
    (h : ({ choices := [(field, choices)] } : LookupResult) = { choices := [(field', choices')] }) :
    choices = choices' := by
  cases h
  rfl

/-- The value of a list that a lookup brought is part of the answer of a catalog. -/
theorem Resolver.Backed.columns {asked : List (Query × Catalog)} {r : Resolver} (h : r.Backed asked)
    {side : Side} {key : String} {e : Entry} (hkey : key = side.key ∨ key = side.partitionsKey)
    (hfind : r.model.find? key = some e) (hsource : e.source = .lookup) :
    ∃ catalog t, (.columns (.text (r.model.get side.instanceKey).plain)
        (r.model.get side.tableKey), catalog) ∈ asked ∧
      catalog.columns (.text (r.model.get side.instanceKey).plain) (r.model.get side.tableKey) =
        .ok t ∧ (key, e.value) ∈ (tableResult side t).values := by
  obtain ⟨t, ⟨query, catalog, hquery, hmem, hrun⟩, hvalue⟩ := h.listed side key e hkey hfind hsource
  obtain ⟨t', hasks, hanswer, hresult⟩ := Rung.run_table hrun
  rw [hasks] at hquery
  cases hquery
  rw [Snapshot.get_snapshot, Snapshot.get_snapshot] at hmem hanswer
  rw [hresult] at hvalue
  exact ⟨catalog, t', hmem, hanswer, hvalue⟩

/-- What is backed is up to date. -/
theorem Resolver.Backed.upToDate {asked : List (Query × Catalog)} {r : Resolver}
    (h : r.Backed asked) (htracked : r.Tracked) : UpToDate asked r := by
  have hfacet : ∀ side (rung : Rung), ∃ facet, r.facet (rung.key side) = .ok facet ∧
      r.choices? (rung.key side) = some facet.choices := by
    intro side rung
    obtain ⟨choices, hchoices⟩ := Option.isSome_iff_exists.1 (htracked.offers side rung)
    obtain ⟨facet, hfacet, rfl⟩ := Option.map_eq_some_iff.1 hchoices
    exact ⟨facet, by simp [Resolver.facet, htracked.ready, hfacet], hchoices⟩
  refine ⟨fun side => ?_, fun side => ?_, fun side e hfind hsource => ?_,
    fun side e hfind hsource => ?_, fun hsink => ?_⟩
  · obtain ⟨facet, hok, hchoices⟩ := hfacet side .place
    refine ⟨facet, hok, (h.offered side .type .place rfl _ hchoices).imp id ?_⟩
    rintro ⟨query, catalog, hquery, hmem, hrun⟩
    obtain ⟨is, hasks, hanswer, hresult⟩ := Rung.run_type hrun
    rw [hasks] at hquery
    cases hquery
    rw [Snapshot.get_snapshot] at hmem hanswer
    exact ⟨catalog, is, hmem, hanswer, LookupResult.choices_inj hresult⟩
  · obtain ⟨facet, hok, hchoices⟩ := hfacet side .table
    refine ⟨facet, hok, (h.offered side .place .table rfl _ hchoices).imp id ?_⟩
    rintro ⟨query, catalog, hquery, hmem, hrun⟩
    obtain ⟨ts, hasks, -, hanswer, hresult⟩ := Rung.run_place hrun
    rw [hasks] at hquery
    cases hquery
    rw [Snapshot.get_snapshot] at hmem hanswer
    exact ⟨catalog, ts, hmem, hanswer, LookupResult.choices_inj hresult⟩
  · obtain ⟨catalog, t, hmem, hanswer, hvalue⟩ := h.columns (.inl rfl) hfind hsource
    refine ⟨catalog, t, hmem, hanswer, ?_⟩
    have hne := (side.partitionsKey_ne_key side).symm
    simpa [tableResult, hne] using hvalue
  · obtain ⟨catalog, t, hmem, hanswer, hvalue⟩ := h.columns (.inr rfl) hfind hsource
    refine ⟨catalog, t, hmem, hanswer, ?_⟩
    have hne := side.partitionsKey_ne_key side
    simpa [tableResult, hne] using hvalue
  · obtain ⟨facet, hok, hchoices⟩ := hfacet .target .table
    refine ⟨facet, hok, (h.offered .target .place .table rfl _ hchoices).elim id ?_⟩
    -- The tables of a single sink are not asked for, so a catalog cannot have brought them.
    rintro ⟨query, catalog, hquery, hmem, hrun⟩
    obtain ⟨ts, -, hsinks, -⟩ := Rung.run_place hrun
    have hsinks' : Datasource.isSingleSink (Snapshot.get r.model.snapshot Keys.targetType) = false :=
      hsinks
    rw [Snapshot.get_snapshot, hsink] at hsinks'
    cases hsinks'

/-- In every state of a run of the task form, started from any job values, what the fields of the
chains offer and what lookups have written is up to date. -/
theorem Template.upToDate_run (disabled : List String) (values : Assoc Value) (steps : List Step) :
    let plan := Template.plan disabled Reaction.none
    let start := (plan.setUp (plan.start (Model.ofMembers values))).1
    UpToDate (plan.asked start steps) (plan.run start steps) := by
  intro plan start
  have hstart : start = plan.begun (Model.ofMembers values) := by
    simp only [start, plan, setUp_plan]
  have htracked : start.Tracked := hstart ▸ tracked_begun disabled Reaction.none _
  have hbacked : start.Backed [] := hstart ▸ backed_begun disabled values
  exact (backed_run disabled htracked hbacked steps).upToDate
    (tracked_run disabled Reaction.none_listsOnly htracked steps)

end SyncForm
