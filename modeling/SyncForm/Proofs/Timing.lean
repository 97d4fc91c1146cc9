import SyncForm.Catalog.Fixture
import SyncForm.Proofs.Display
import SyncForm.Proofs.Import
import SyncForm.Proofs.Settling

/-!
# The timing of completions

A schedule makes given changes in order and completes lookups in between, all of them answered by
one catalog. Two schedules of the same changes leave a form with the same values and choices once no
lookup is in flight, but for the empty records at the end of the column lists
(`Template.timing_agrees`): a table that was superseded after it was brought has left its length on
the list of the other side (`Template.timing_shows`). `Alike` is the relation that two runs keep.
-/

namespace SyncForm

/-- Steps that make some changes in order and complete lookups in between, as one catalog answers. -/
inductive Schedule (catalog : Catalog) : List (String × Value) → List Step → Prop where
  | done : Schedule catalog [] []
  | complete {changes steps} (number : Nat) (rest : Schedule catalog changes steps) :
    Schedule catalog changes (.complete number (.answered catalog) :: steps)
  | change {changes steps} (key : String) (value : Value) (rest : Schedule catalog changes steps) :
    Schedule catalog ((key, value) :: changes) (.change key value true :: steps)

/-- A schedule completes some lookups and makes its first change. -/
theorem Schedule.split {catalog : Catalog} {key : String} {value : Value}
    {changes : List (String × Value)} {steps : List Step}
    (h : Schedule catalog ((key, value) :: changes) steps) :
    ∃ before after, steps = before ++ .change key value true :: after ∧
      Schedule catalog [] before ∧ Schedule catalog changes after := by
  induction steps with
  | nil => cases h
  | cons step rest ih =>
    cases h with
    | complete number h =>
      obtain ⟨before, after, rfl, hbefore, hafter⟩ := ih h
      exact ⟨_ :: before, after, rfl, .complete number hbefore, hafter⟩
    | change _ _ h => exact ⟨[], rest, rfl, .done, h⟩

/-- A resolver without a first load: only lookups of rungs are in flight, and the write modes offered
are those of the type of the target. -/
structure Resolver.Unprimed (r : Resolver) : Prop where
  rungs : ∀ l ∈ r.inFlight, ∃ side rung, l.OfRung side rung
  modes : r.choices? Keys.writeMode = some (Template.writeModeRule.build r.model)

/-- Noting an event keeps a resolver without a first load. -/
theorem Resolver.Unprimed.log {r : Resolver} (h : r.Unprimed) (event : Event) :
    (r.log event).Unprimed :=
  ⟨h.rungs, h.modes⟩

namespace Template

variable (disabled : List String) {react : Reaction} {r : Resolver}

/-! ## The write modes -/

/-- Writing a key keeps a resolver without a first load. -/
theorem unprimed_write (hreact : react.ListsOnly) (h : r.Unprimed) (key : String) (value : Value) :
    ((plan disabled react).write r key value).Unprimed where
  rungs := h.rungs
  modes :=
    have hcurrent : derivedModes.Current r := h.modes
    hcurrent.write (find?_modeField disabled)
      (spares_modes disabled (spares_key disabled hreact .target .type)) key value

/-- A change of a rung keeps a resolver without a first load. -/
theorem unprimed_rerunKey (hreact : react.ListsOnly) (h : r.Unprimed) (side : Side) (rung : Rung)
    (value : Value) : (rerunKey disabled r side rung value react).Unprimed where
  rungs l hl := by
    rw [((plan disabled react).inFlight_rerun r (rung.key side) value (rung.trigger side)).1] at hl
    rcases List.mem_append.1 hl with hold | hnew
    · exact h.rungs l hold
    · rw [List.mem_singleton.1 hnew]
      exact ⟨side, rung, ofRung_newLookup _ side rung⟩
  modes := by
    have hwritten : derivedModes.Current ((plan disabled react).write r (rung.key side) value) :=
      (unprimed_write disabled hreact h (rung.key side) value).modes
    exact hwritten.runSteps (find?_modeField disabled)
      (spares_modes disabled (spares_key disabled hreact .target .type))
      (Derived.quiet_cascade (quiet_trigger disabled) (trigger?_key disabled react side rung))

/-- A completion keeps a resolver without a first load, and the choices of the fields below no
rung. -/
theorem unprimed_complete (hreact : react.ListsOnly) (ht : r.Tracked) (h : r.Unprimed) {l : Lookup}
    (hl : l ∈ r.inFlight) (ending : Ending) :
    ((plan disabled react).complete r l (ending.answer l)).1.Unprimed ∧
      ∀ field, field ≠ Keys.writeMode →
        (∀ (side : Side) (rung : Rung), 0 < rung.depth → field ≠ rung.key side) →
          ((plan disabled react).complete r l (ending.answer l)).1.choices? field =
            r.choices? field := by
  have hframe := frame_complete disabled r hreact ht hl ending
  have hrungs : ∀ l' ∈ ((plan disabled react).complete r l (ending.answer l)).1.inFlight,
      ∃ side rung, l'.OfRung side rung := fun l' hl' => by
    rw [hframe.inFlight] at hl'
    exact h.rungs l' (Resolver.mem_without.1 hl').1
  have hmodes : derivedModes.Current ((plan disabled react).complete r l (ending.answer l)).1 := by
    have hcurrent : derivedModes.Current r := h.modes
    exact hcurrent.complete (find?_modeField disabled)
      (spares_modes disabled (spares_key disabled hreact .target .type))
      fun result => quiet_answer (ht.known l hl) ending
  refine ⟨⟨hrungs, hmodes⟩, ?_⟩
  obtain ⟨side₀, rung₀, hrung⟩ := h.rungs l hl
  have hends := complete_cases disabled react (ht.known l hl) (holds_facets r ht) ending
  generalize (plan disabled react).complete r l (ending.answer l) = done at hends ⊢
  cases hends with
  | stale | failed | skipped => exact fun _ _ _ => rfl
  | offered _ side lower choices hfills _ =>
    have hdepth : 0 < lower.depth := by
      rcases hfills with ⟨hloader, -⟩ | ⟨upper, -, hlower⟩
      · exact absurd (hloader.trigger.symm.trans hrung.trigger)
          (Rung.loaderName_ne_key side₀ side rung₀)
      · omega
    exact fun field _ hfield => (Resolver.choices?_offer (r.without l) ..).trans
      (if_neg (hfield side lower hdepth).symm)
  | brought _ side t _ _ =>
    exact fun field hmode _ =>
      (plan disabled react).choices?_bring (ruleFree disabled react hmode) (r.without l) side t

end Template

/-! ## Two runs -/

/-- Two resolvers agree: on all values but the lists, on the choices of the fields below no rung,
and on what each rung settles at. -/
structure Resolver.Agree (catalog : Catalog) (r r' : Resolver) : Prop where
  values : ∀ key, Unlisted key → r'.model.value? key = r.model.value? key
  choices : ∀ field, field ≠ Keys.writeMode →
    (∀ (side : Side) (rung : Rung), 0 < rung.depth → field ≠ rung.key side) →
      r'.choices? field = r.choices? field
  settles : ∀ side rung, ∃ result,
    r.Settles catalog side rung result ∧ r'.Settles catalog side rung result

namespace Resolver.Agree

variable {catalog : Catalog} {r r' : Resolver}

/-- Agreement goes both ways. -/
theorem symm (h : r.Agree catalog r') : r'.Agree catalog r where
  values key hkey := (h.values key hkey).symm
  choices field hmode hfield := (h.choices field hmode hfield).symm
  settles side rung := by
    obtain ⟨result, hr, hr'⟩ := h.settles side rung
    exact ⟨result, hr', hr⟩

/-- Noting events keeps resolvers in agreement. -/
theorem log (h : r.Agree catalog r') (event : Event) : (r.log event).Agree catalog (r'.log event) where
  values := h.values
  choices := h.choices
  settles side rung := by
    obtain ⟨result, hr, hr'⟩ := h.settles side rung
    exact ⟨result, hr.mono (fun _ _ => rfl) (fun _ => id) fun _ _ => Iff.rfl,
      hr'.mono (fun _ _ => rfl) (fun _ => id) fun _ _ => Iff.rfl⟩

/-- Resolvers that agree hold the same keys, the lists aside. -/
theorem holds_eq (h : r.Agree catalog r') {key : String} (hkey : Unlisted key) :
    r'.model.holds key = r.model.holds key := by
  have hsome := congrArg Option.isSome (h.values key hkey)
  rwa [Model.isSome_value?, Model.isSome_value?] at hsome

end Resolver.Agree

namespace Template

variable (disabled : List String) {catalog : Catalog} {r r' : Resolver}

/-- Writing the same key that triggers nothing keeps resolvers in agreement. -/
theorem agree_write (h : r.Agree catalog r') {key : String} (value : Value)
    (hplain : (plan disabled Form.follow).trigger? key = none) (hkey : Unlisted key) :
    ((plan disabled Form.follow).write r key value).Agree catalog
      ((plan disabled Form.follow).write r' key value) where
  values other hother := by
    have hspares := Form.follow_listsOnly.spares other fun side => (hother side).1
    rw [Plan.value?_write _ hspares, Plan.value?_write _ hspares, h.values other hother]
  choices field hmode hfield := by
    have hfree := ruleFree disabled Form.follow hmode
    rw [Plan.choices?_write _ hfree, Plan.choices?_write _ hfree]
    exact h.choices field hmode hfield
  settles side rung := by
    obtain ⟨result, hr, hr'⟩ := h.settles side rung
    exact ⟨result, settles_write disabled hr value hplain hkey,
      settles_write disabled hr' value hplain hkey⟩

/-- The same change of a rung keeps resolvers in agreement. -/
theorem agree_rerunKey (ht : r.Tracked) (ht' : r'.Tracked) (h : r.Agree catalog r') (side₀ : Side)
    (rung₀ : Rung) (value : Value) :
    (rerunKey disabled r side₀ rung₀ value Form.follow).Agree catalog
      (rerunKey disabled r' side₀ rung₀ value Form.follow) := by
  have hvalues : ∀ other, Unlisted other →
      (rerunKey disabled r' side₀ rung₀ value Form.follow).model.value? other =
        (rerunKey disabled r side₀ rung₀ value Form.follow).model.value? other := fun other hother => by
    have hspares := Form.follow_listsOnly.spares other fun side => (hother side).1
    rw [Plan.value?_rerun _ hspares, Plan.value?_rerun _ hspares, h.values other hother]
  refine ⟨hvalues, fun field hmode hfield => ?_, fun side rung => ?_⟩
  · have hfree := ruleFree disabled Form.follow hmode
    rw [Plan.choices?_rerun _ hfree, Plan.choices?_rerun _ hfree, h.choices field hmode hfield]
  · obtain ⟨result, hr, hr'⟩ := h.settles side rung
    by_cases habove : Rung.AtOrAbove side₀ rung₀ side rung
    · obtain ⟨rfl, hdepth⟩ := habove
      have hsame : SameDownTo side₀ rung (rerunKey disabled r side₀ rung₀ value Form.follow).model
          (rerunKey disabled r' side₀ rung₀ value Form.follow).model :=
        fun other _ => hvalues _ (other.unlisted side₀)
      have hsettles := settles_rerunKey disabled ht' hr' rung₀ value hdepth
      rw [hsame.outcome_eq] at hsettles
      exact ⟨_, settles_rerunKey disabled ht hr rung₀ value hdepth, hsettles⟩
    · exact ⟨result, settles_rerunKey_of_not disabled hr side₀ rung₀ value habove,
        settles_rerunKey_of_not disabled hr' side₀ rung₀ value habove⟩

/-- A completion in one of two resolvers that agree keeps them in agreement. -/
theorem agree_complete (ht : r.Tracked) (hu : r.Unprimed) (h : r.Agree catalog r') {l : Lookup}
    (hl : l ∈ r.inFlight) :
    ((plan disabled Form.follow).complete r l ((Ending.answered catalog).answer l)).1.Agree catalog
      r' where
  values key hkey := by
    have hframe := frame_complete disabled r Form.follow_listsOnly ht hl (.answered catalog)
    rw [hframe.values key hkey, h.values key hkey]
  choices field hmode hfield := by
    have hkept := (unprimed_complete disabled Form.follow_listsOnly ht hu hl (.answered catalog)).2
    rw [hkept field hmode hfield, h.choices field hmode hfield]
  settles side rung := by
    obtain ⟨result, hr, hr'⟩ := h.settles side rung
    exact ⟨result, settles_complete disabled ht hl hr, hr'⟩

end Template

/-- Two forms of the task table whose resolvers agree, neither of them with a first load. -/
structure Alike (disabled : List String) (catalog : Catalog) (f f' : Form) : Prop where
  sound : f.Sound disabled
  sound' : f'.Sound disabled
  unprimed : f.resolver.Unprimed
  unprimed' : f'.resolver.Unprimed
  agree : f.resolver.Agree catalog f'.resolver

namespace Alike

variable {disabled : List String} {catalog : Catalog} {f f' : Form}

/-- Being alike goes both ways. -/
theorem symm (h : Alike disabled catalog f f') : Alike disabled catalog f' f :=
  ⟨h.sound', h.sound, h.unprimed', h.unprimed, h.agree.symm⟩

/-- A completion in one of two forms keeps them alike. -/
theorem complete (h : Alike disabled catalog f f') (number : Nat) :
    Alike disabled catalog (f.take (.complete number (.answered catalog))) f' := by
  suffices hstep : (f.take (.complete number (.answered catalog))).resolver.Unprimed ∧
      (f.take (.complete number (.answered catalog))).resolver.Agree catalog f'.resolver from
    ⟨h.sound.take _, h.sound', hstep.1, h.unprimed', hstep.2⟩
  have htaken := f.take_cases (.complete number (.answered catalog))
  rw [h.sound.plan, Resolver.noted_complete] at htaken
  generalize (f.take (.complete number (.answered catalog))).resolver = r' at htaken ⊢
  cases htaken with
  | absent => exact ⟨h.unprimed, h.agree⟩
  | ended _ _ l hl =>
    have hin := (Resolver.lookup?_eq_some hl).1
    exact ⟨(Template.unprimed_complete disabled Form.follow_listsOnly h.sound.tracked h.unprimed hin
      _).1, Template.agree_complete disabled h.sound.tracked h.unprimed h.agree hin⟩

/-- The same change in two forms keeps them alike. -/
theorem change (h : Alike disabled catalog f f') {key : String} (value : Value)
    (hkey : Unlisted key) :
    Alike disabled catalog (f.take (.change key value true)) (f'.take (.change key value true)) := by
  have hagree := h.agree.log (.changed key value)
  have hunprimed := h.unprimed.log (.changed key value)
  have hunprimed' := h.unprimed'.log (.changed key value)
  suffices hstep : (f.take (.change key value true)).resolver.Unprimed ∧
      (f'.take (.change key value true)).resolver.Unprimed ∧
      (f.take (.change key value true)).resolver.Agree catalog
        (f'.take (.change key value true)).resolver from
    ⟨h.sound.take _, h.sound'.take _, hstep.1, hstep.2.1, hstep.2.2⟩
  cases hheld : f.resolver.model.holds key with
  | false =>
    rw [h.sound.take_unheld value true hheld,
      h.sound'.take_unheld value true ((h.agree.holds_eq hkey).trans hheld)]
    exact ⟨hunprimed, hunprimed', hagree⟩
  | true =>
    cases htrigger : (Template.plan disabled Form.follow).trigger? key with
    | none =>
      rw [h.sound.take_plain value true htrigger hheld,
        h.sound'.take_plain value true htrigger ((h.agree.holds_eq hkey).trans hheld)]
      exact ⟨Template.unprimed_write disabled Form.follow_listsOnly hunprimed key value,
        Template.unprimed_write disabled Form.follow_listsOnly hunprimed' key value,
        Template.agree_write disabled hagree value htrigger hkey⟩
    | some trigger =>
      obtain ⟨side, rung, rfl, -⟩ := Template.trigger?_eq_some disabled Form.follow htrigger
      rw [h.sound.take_rung side rung value, h.sound'.take_rung side rung value]
      have ht := h.sound.noted (.change (rung.key side) value true)
      have ht' := h.sound'.noted (.change (rung.key side) value true)
      exact ⟨Template.unprimed_rerunKey disabled Form.follow_listsOnly hunprimed side rung value,
        Template.unprimed_rerunKey disabled Form.follow_listsOnly hunprimed' side rung value,
        Template.agree_rerunKey disabled ht ht' hagree side rung value⟩

/-- Completions in one of two forms keep them alike. -/
theorem completions (h : Alike disabled catalog f f') {steps : List Step}
    (hs : Schedule catalog [] steps) : Alike disabled catalog (f.run steps) f' := by
  induction steps generalizing f with
  | nil => exact h
  | cons step rest ih =>
    cases hs with
    | complete number hs => exact ih (h.complete number) hs

/-- Two schedules of the same changes keep forms alike. -/
theorem run {changes : List (String × Value)} {steps steps' : List Step}
    (hs : Schedule catalog changes steps) (hs' : Schedule catalog changes steps')
    (hkeys : ∀ change ∈ changes, Unlisted change.1) (h : Alike disabled catalog f f') :
    Alike disabled catalog (f.run steps) (f'.run steps') := by
  induction hs generalizing f f' steps' with
  | done => exact (h.symm.completions hs').symm
  | complete number _ ih => exact ih hs' hkeys (h.complete number)
  | change key value _ ih =>
    obtain ⟨before, after, rfl, hbefore, hafter⟩ := hs'.split
    have hchange := (h.symm.completions hbefore).symm.change value (hkeys _ (.head _))
    have hrest := ih hafter (fun change hmem => hkeys change (.tail _ hmem)) hchange
    rw [Form.run_append]
    exact hrest

/-- A form that starts with lists under the column keys is like itself. -/
theorem onModel (disabled : List String) (catalog : Catalog) {m : Model}
    (hlists : ∀ side : Side, ∃ items, m.value? side.key = some (.list items)) :
    Alike disabled catalog (Form.onModel disabled m) (Form.onModel disabled m) := by
  have hsound := Form.sound_onModel disabled m
  have hidle : (Form.onModel disabled m).resolver.inFlight = [] := rfl
  have hunprimed : (Form.onModel disabled m).resolver.Unprimed := by
    refine ⟨fun l hl => absurd hl List.not_mem_nil, ?_⟩
    obtain ⟨d, hd, hrule⟩ : ∃ d,
        (Template.plan disabled Form.follow).find? Keys.writeMode = some d ∧
          d.choiceRule = some Template.writeModeRule := ⟨_, rfl, rfl⟩
    rw [Form.onModel, Resolver.choices?, Plan.valueOf?_begun, hd]
    simp only [Option.map_some, Descriptor.initialFacet, Descriptor.initialChoices, hrule]
  refine ⟨hsound, hsound, hunprimed, hunprimed, fun _ _ => rfl, fun _ _ _ => rfl,
    fun side rung => ?_⟩
  have hshows : ∃ result, Shows (Form.onModel disabled m).resolver side rung result := by
    have hempty := Template.choices?_begun disabled Form.follow m side
    cases rung with
    | type => exact ⟨{}, hempty .place⟩
    | place => exact ⟨{}, hempty .table⟩
    | table =>
      obtain ⟨items, hitems⟩ := hlists side
      have hcolumns : (Form.onModel disabled m).resolver.model.value? side.key =
          some (.list items) := Plan.value?_begun_of_given _ hitems
      obtain ⟨partitions, hpartitions⟩ := Model.exists_value? (hsound.partitions side)
      have hne := (side.partitionsKey_ne_key side).symm
      refine ⟨{ values := [(side.key, .list items), (side.partitionsKey, partitions)] },
        ⟨items, ?_, Padded.of_eq hcolumns⟩, hpartitions.trans (congrArg some ?_)⟩
      · simp [LookupResult.listed, Assoc.valueOf?]
      · simp [LookupResult.listed, Assoc.valueOf?, hne]
  obtain ⟨result, hresult⟩ := hshows
  have hsettles : (Form.onModel disabled m).resolver.Settles catalog side rung result :=
    ⟨fun l hl => absurd hl List.not_mem_nil, .inl hresult⟩
  exact ⟨result, hsettles, hsettles⟩

end Alike

namespace Template

/-- The timing of completions does not matter, but for the empty records at the end of the columns.
Two schedules of the same changes, none of them of a list, that leave no lookup in flight leave a
form with the same values and the same choices; the columns of a side are the same list, to which
each schedule may have appended empty records, to those of the target only where it takes free-form
records. -/
theorem timing_agrees {disabled : List String} {values : Value} {f : Form}
    (hf : Form.ofValues values (taskForm disabled) = .ok f) {catalog : Catalog}
    {changes : List (String × Value)} (hkeys : ∀ change ∈ changes, Unlisted change.1)
    {steps steps' : List Step} (hs : Schedule catalog changes steps)
    (hs' : Schedule catalog changes steps') (hidle : (f.run steps).resolver.inFlight = [])
    (hidle' : (f.run steps').resolver.inFlight = []) :
    (∀ key, (∀ side : Side, key ≠ side.key) →
      (f.run steps').resolver.model.value? key = (f.run steps).resolver.model.value? key) ∧
    (∀ field, (f.run steps').resolver.choices? field = (f.run steps).resolver.choices? field) ∧
    ∀ side, ∃ items, Padded (f.run steps).resolver.model side items ∧
      Padded (f.run steps').resolver.model side items := by
  obtain ⟨m, rfl, hlists⟩ := Form.exists_onModel hf
  have halike := (Alike.onModel disabled catalog hlists).run hs hs' hkeys
  have hshown : ∀ side rung, ∃ result,
      Shows ((Form.onModel disabled m).run steps).resolver side rung result ∧
        Shows ((Form.onModel disabled m).run steps').resolver side rung result := by
    intro side rung
    obtain ⟨result, hr, hr'⟩ := halike.agree.settles side rung
    exact ⟨result, hr.shows_of_idle hidle, hr'.shows_of_idle hidle'⟩
  refine ⟨fun key hkey => ?_, fun field => ?_, fun side => ?_⟩
  · by_cases hpartitions : ∃ side : Side, key = side.partitionsKey
    · obtain ⟨side, rfl⟩ := hpartitions
      obtain ⟨result, ⟨-, hp⟩, ⟨-, hp'⟩⟩ := hshown side .table
      rw [hp, hp']
    · exact halike.agree.values key fun side => ⟨hkey side, fun h => hpartitions ⟨side, h⟩⟩
  · by_cases hmode : field = Keys.writeMode
    · subst hmode
      have htype := halike.agree.values Keys.targetType (Rung.type.unlisted .target)
      rw [halike.unprimed.modes, halike.unprimed'.modes, build_writeModeRule htype]
    · by_cases hrung : ∃ (side : Side) (rung : Rung), 0 < rung.depth ∧ field = rung.key side
      · obtain ⟨side, rung, hdepth, rfl⟩ := hrung
        cases rung with
        | type => cases hdepth
        | place =>
          obtain ⟨result, hchoices, hchoices'⟩ := hshown side .type
          exact hchoices'.trans hchoices.symm
        | table =>
          obtain ⟨result, hchoices, hchoices'⟩ := hshown side .place
          exact hchoices'.trans hchoices.symm
      · exact halike.agree.choices field hmode fun side rung hdepth h =>
          hrung ⟨side, rung, hdepth, h⟩
  · obtain ⟨result, ⟨⟨items, hitems, hpadded⟩, -⟩, ⟨⟨items', hitems', hpadded'⟩, -⟩⟩ :=
      hshown side .table
    obtain rfl : items = items' := Value.list.inj (hitems.symm.trans hitems')
    exact ⟨items, hpadded, hpadded'⟩

/-- A catalog in which one table has a column and the others have none. -/
def narrowTables : Catalog :=
  { Fixture.empty.toCatalog with
    columns := fun _ table => .ok {
      columns := if table.isText "wide" then [{ name := "id", type := "int" }] else []
      partitionColumns := []
      partitioned := false } }

/-- Two target tables are chosen one after the other, and the columns of the first one are brought
before or after the second one is chosen. -/
def chooseTables (early : Bool) : List Step :=
  let wide : Step := .change Keys.targetTable (.text "wide") true
  let narrow : Step := .change Keys.targetTable (.text "narrow") true
  let bring (number : Nat) : Step := .complete number (.answered narrowTables)
  if early then [wide, bring 0, narrow, bring 1] else [wide, narrow, bring 0, bring 1]

/-- Both are schedules of the same changes. -/
theorem schedule_chooseTables (early : Bool) :
    Schedule narrowTables
      [(Keys.targetTable, .text "wide"), (Keys.targetTable, .text "narrow")]
      (chooseTables early) := by
  cases early with
  | true => exact .change _ _ (.complete _ (.change _ _ (.complete _ .done)))
  | false => exact .change _ _ (.change _ _ (.complete _ (.complete _ .done)))

/-- Both leave no lookup in flight, but only the early one an entry among the columns of the
source. -/
theorem run_chooseTables (early : Bool) {f : Form}
    (hf : Form.ofValues (.object [(Keys.sourceTable, .text "orders"),
      (Keys.targetInstance, .text "4")]) (taskForm []) = .ok f) :
    (f.run (chooseTables early)).resolver.inFlight = [] ∧
      ((f.run (chooseTables early)).resolver.model.get Keys.sourceColumns).isTrue = early := by
  obtain rfl : Form.onModel [] (((Model.ofMembers [(Keys.sourceTable, .text "orders"),
      (Keys.targetInstance, .text "4")]).ensure Keys.sourceColumns (.list [])).ensure
        Keys.targetColumns (.list [])) = f := by
    have hform := Form.ofValues_taskForm (.object [(Keys.sourceTable, .text "orders"),
      (Keys.targetInstance, .text "4")]) []
    exact Except.ok.inj (hform.symm.trans hf)
  have hsound := Form.sound_ofValues hf
  have hwide := hsound.take_rung_steps .target .table (.text "wide")
  have hfirst := hsound.take (.change Keys.targetTable (.text "wide") true)
  simp only [Rung.key, Side.tableKey] at hwide
  rw [← List.isEmpty_iff]
  cases early with
  | true =>
    have hnarrow := (hfirst.take (.complete 0 (.answered narrowTables))).take_rung_steps .target
      .table (.text "narrow")
    simp only [Rung.key, Side.tableKey] at hnarrow
    simp only [chooseTables, if_true, Form.run, List.foldl]
    rw [hnarrow, hwide]
    decide +kernel
  | false =>
    have hnarrow := hfirst.take_rung_steps .target .table (.text "narrow")
    simp only [Rung.key, Side.tableKey] at hnarrow
    simp only [chooseTables, Bool.false_eq_true, if_false, Form.run, List.foldl]
    rw [hnarrow, hwide]
    decide +kernel

/-- The changes of the two schedules are none of a list. -/
theorem unlisted_chooseTables :
    ∀ change ∈ [(Keys.targetTable, Value.text "wide"), (Keys.targetTable, Value.text "narrow")],
      Unlisted change.1 := by
  intro change hchange
  have hkey : change.1 = Rung.table.key .target := by
    simp only [List.mem_cons, List.not_mem_nil, or_false] at hchange
    rcases hchange with rfl | rfl <;> rfl
  exact hkey ▸ Rung.table.unlisted .target

/-- The two schedules leave the same target columns, none. -/
theorem timing_agrees_narrow :
    ∃ f, Form.ofValues (.object [(Keys.sourceTable, .text "orders"),
        (Keys.targetInstance, .text "4")]) (taskForm []) = .ok f ∧
      (∀ field, (f.run (chooseTables false)).resolver.choices? field =
        (f.run (chooseTables true)).resolver.choices? field) ∧
      ∀ side, ∃ items, Padded (f.run (chooseTables true)).resolver.model side items ∧
        Padded (f.run (chooseTables false)).resolver.model side items := by
  obtain ⟨f, hf⟩ : ∃ f, Form.ofValues (.object [(Keys.sourceTable, .text "orders"),
      (Keys.targetInstance, .text "4")]) (taskForm []) = .ok f := ⟨_, Form.ofValues_taskForm ..⟩
  have hagrees := timing_agrees hf unlisted_chooseTables (schedule_chooseTables true)
    (schedule_chooseTables false) (run_chooseTables true hf).1 (run_chooseTables false hf).1
  exact ⟨f, hf, hagrees.2⟩

/-- The two schedules do not leave the same source columns: a table that was brought has made them
grow, though it was superseded later. -/
theorem timing_shows :
    ∃ f, Form.ofValues (.object [(Keys.sourceTable, .text "orders"),
        (Keys.targetInstance, .text "4")]) (taskForm []) = .ok f ∧
      ∃ catalog changes steps steps', (∀ change ∈ changes, Unlisted change.1) ∧
        Schedule catalog changes steps ∧ Schedule catalog changes steps' ∧
        (f.run steps).resolver.inFlight = [] ∧ (f.run steps').resolver.inFlight = [] ∧
        (f.run steps').resolver.model.value? Keys.sourceColumns ≠
          (f.run steps).resolver.model.value? Keys.sourceColumns := by
  obtain ⟨f, hf⟩ : ∃ f, Form.ofValues (.object [(Keys.sourceTable, .text "orders"),
      (Keys.targetInstance, .text "4")]) (taskForm []) = .ok f := ⟨_, Form.ofValues_taskForm ..⟩
  obtain ⟨hearly, htrue⟩ := run_chooseTables true hf
  obtain ⟨hlate, hfalse⟩ := run_chooseTables false hf
  refine ⟨f, hf, narrowTables, _, chooseTables true, chooseTables false, unlisted_chooseTables,
    schedule_chooseTables true, schedule_chooseTables false, hearly, hlate, fun hsame => ?_⟩
  rw [Model.get_congr hsame, htrue] at hfalse
  cases hfalse

end Template

end SyncForm
