import SyncForm.Proofs.Connections
import SyncForm.Proofs.RoundTrip

/-!
# Column lists are lists of records

Of the ways in which a column list enters a form one alone takes what it is given: a change of the
list by the user. All others write records — the parameters are converted, a lookup brings records,
a cascade resets to the empty list, and the mapping editor keeps lists of records such. So while the
user writes no list of anything else, the editor reads records (`Template.records_run`), and neither
it nor an export fails on an entry. `Template.unread_entry` is a form whose export does.
-/

namespace SyncForm

/-- A value is no list, or a list of records. -/
def Value.IsReadable (v : Value) : Prop :=
  ∀ entries, v = .list entries → ∃ cs : List Column, entries = cs.map .column

/-- A value is a list of records, or does not count as given. -/
def Value.IsExportable (v : Value) : Prop :=
  v.isTrue = false ∨ ∃ cs : List Column, v = .list (cs.map .column)

/-- A property of the values under the column keys that every list of records has, and of lists no
other ones. -/
structure Admits (good : Value → Prop) : Prop where
  records : ∀ cs : List Column, good (.list (cs.map .column))
  readable : ∀ v, good v → v.IsReadable

/-- Readable values are lists of records if they are lists. -/
theorem admits_readable : Admits Value.IsReadable where
  records cs _ h := ⟨cs, (Value.list.inj h).symm⟩
  readable _ h := h

/-- Exportable values are lists of records if they are lists. -/
theorem admits_exportable : Admits Value.IsExportable where
  records cs := .inr ⟨cs, rfl⟩
  readable v h := by
    rintro entries rfl
    rcases h with hblank | ⟨cs, hcs⟩
    · cases entries with
      | nil => exact ⟨[], rfl⟩
      | cons entry rest => cases hblank
    · exact ⟨cs, Value.list.inj hcs⟩

/-- What a model holds under the column keys has some property. -/
def ColumnsAre (good : Value → Prop) (m : Model) : Prop :=
  ∀ (side : Side) v, m.value? side.key = some v → good v

namespace ColumnsAre

variable {good : Value → Prop} {m m' : Model}

/-- Other models with the same column lists hold them as well. -/
theorem congr (h : ColumnsAre good m) (hm : ∀ side : Side, m'.value? side.key = m.value? side.key) :
    ColumnsAre good m' :=
  fun side v hv => h side v ((hm side).symm.trans hv)

/-- The editor reads records. -/
theorem shown (hgood : Admits good) (h : ColumnsAre good m) :
    ∃ records, Mapping.Shown m (fun _ => False) records := by
  have hread : ∀ side, ∃ cs : List Column, Mapping.items m side = cs.map .column := by
    intro side
    cases hvalue : m.value? side.key with
    | none =>
      refine ⟨[], ?_⟩
      unfold Mapping.items Model.get
      rw [hvalue]
      rfl
    | some v =>
      unfold Mapping.items Model.get
      rw [hvalue, Option.getD_some]
      split
      · next entries => exact hgood.readable _ (h side _ hvalue) entries rfl
      · exact ⟨[], rfl⟩
  choose records hrecords using hread
  exact ⟨records, hrecords, fun _ hnone => hnone.elim⟩

/-- An operation of the editor keeps the column lists lists of records. -/
theorem perform (hgood : Admits good) (h : ColumnsAre good m) (call : EditorCall) :
    ColumnsAre good (call.perform m).model := by
  obtain ⟨records, hshown⟩ := h.shown hgood
  have hdone := EditorCall.shown_perform hshown call
  intro side v hv
  rcases (call.local_perform m).lists side with hsame | ⟨entries, hentries⟩
  · exact h side v (hsame.symm.trans hv)
  · obtain rfl := Option.some.inj (hentries.symm.trans hv)
    rw [← Mapping.items_eq hentries, hdone.items]
    exact hgood.records _

/-- The reaction of a form keeps the column lists lists of records. -/
theorem follow (hgood : Admits good) (h : ColumnsAre good m) (key : String) :
    ColumnsAre good (Form.follow key m).1 := by
  rw [Form.follow_model]
  split
  · exact h.perform hgood (.reconcile (Mapping.isSingleSink m))
  · exact h

end ColumnsAre

/-- The records of a table are records. -/
theorem TableColumns.exists_records (t : TableColumns) :
    ∃ cs : List Column, t.records = cs.map .column := by
  unfold records
  generalize 0 = i
  induction t.columns generalizing i with
  | nil => exact ⟨[], rfl⟩
  | cons c rest ih =>
    obtain ⟨cs, hcs⟩ := ih (i + 1)
    exact ⟨_ :: cs, congrArg (_ :: ·) hcs⟩

namespace Template

open Form

variable {good : Value → Prop} (hgood : Admits good) (disabled : List String) {r : Resolver}

include hgood

/-- Announcing a key keeps the column lists lists of records. -/
theorem columnsAre_propagate (h : ColumnsAre good r.model) (key : String) :
    ColumnsAre good ((plan disabled follow).propagate r key).model :=
  h.follow hgood key

/-- Writing a key keeps the column lists lists of records, unless it is a column key and what is
written is none. -/
theorem columnsAre_write (h : ColumnsAre good r.model) {key : String} {value : Value}
    (hvalue : ∀ side : Side, key = side.key → good value) :
    ColumnsAre good ((plan disabled follow).write r key value).model := by
  refine columnsAre_propagate hgood disabled (fun side v hv => ?_) key
  rw [Model.value?_setUser] at hv
  split at hv
  · next hkey =>
    cases hv
    exact hvalue side hkey
  · exact h side v hv

/-- A cascade keeps the column lists lists of records. -/
theorem columnsAre_runSteps (h : ColumnsAre good r.model) (steps : List CascadeStep) :
    ColumnsAre good (steps.foldl (plan disabled follow).runStep r).model := by
  induction steps generalizing r with
  | nil => exact h
  | cons step rest ih =>
    refine ih ?_
    cases step with
    | empty field => exact h
    | supersede name => exact h
    | reset key =>
      refine columnsAre_propagate hgood disabled (fun side v hv => ?_) key
      rw [Model.value?_clear] at hv
      split at hv
      · next hkey =>
        cases hv
        rw [hkey, (usual_lists disabled follow side).1]
        exact hgood.records []
      · exact h side v hv

/-- Bringing the lists of a table keeps the column lists lists of records. -/
theorem columnsAre_bring (h : ColumnsAre good r.model) (side : Side) (t : TableColumns) :
    ColumnsAre good ((plan disabled follow).bring r side t).model := by
  refine columnsAre_propagate hgood disabled (columnsAre_propagate hgood disabled ?_ _) _
  intro s v hv
  rw [Model.value?_setLookup, if_neg (side.partitionsKey_ne_key s), Model.value?_setLookup] at hv
  split at hv
  · cases hv
    obtain ⟨cs, hcs⟩ := t.exists_records
    rw [hcs]
    exact hgood.records cs
  · exact h s v hv

/-- Completing a lookup keeps the column lists lists of records, however it ends. -/
theorem columnsAre_complete (h : ColumnsAre good r.model) {l : Lookup} (hl : l.Known)
    (hoffers : ∀ side rung, Assoc.holds r.facets (Rung.key rung side) = true) (ending : Ending) :
    ColumnsAre good ((plan disabled follow).complete r l (ending.answer l)).1.model := by
  have hends := complete_cases disabled follow hl hoffers ending
  generalize (plan disabled follow).complete r l (ending.answer l) = done at hends ⊢
  cases hends with
  | stale | skipped | offered => exact h
  | failed _ cause _ => exact h.congr fun side => Plan.value?_fail (r.without l) l cause side.key
  | brought _ side t _ _ => exact columnsAre_bring hgood disabled h side t

end Template

/-! ## Runs -/

/-- What an act writes under a column key on behalf of the user has some property. -/
def Act.Writes (good : Value → Prop) (act : Act) : Prop :=
  ∀ (side : Side) value running, act = .step (.change side.key value running) → good value

namespace Form

open Template

variable {good : Value → Prop} {disabled : List String} {f : Form}

/-- An act that writes no list of anything else keeps the column lists lists of records. -/
theorem Sound.columnsAre_act (hgood : Admits good) (hf : f.Sound disabled)
    (h : ColumnsAre good f.resolver.model) {act : Act} (hact : act.Writes good) :
    ColumnsAre good (f.act act).resolver.model := by
  cases act with
  | edit call =>
    rw [Form.act, call.run_eq]
    exact h.perform hgood call
  | validate =>
    obtain ⟨m, hm, hvalues⟩ := f.validate_model
    rw [Form.act, hm]
    exact h.congr fun side => hvalues side.key
  | toParams strict =>
    obtain ⟨m, journal, hm, -, hvalues⟩ := f.toParams_model disabled hf.plan strict
    rw [Form.act, hm]
    exact h.congr fun side => hvalues side.key (by cases side <;> decide)
  | step step =>
    have htaken := f.take_cases step
    rw [hf.plan] at htaken
    rw [Form.act]
    generalize (f.take step).resolver = r' at htaken ⊢
    have hwrite {key : String} {value : Value} {running : Bool}
        (hstep : step = .change key value running) : ColumnsAre good
          ((Template.plan disabled follow).write (f.resolver.noted step) key value).model := by
      subst hstep
      refine columnsAre_write hgood disabled h fun side hkey => hact side value running ?_
      rw [hkey]
    cases htaken with
    | refused | absent => exact h
    | written => exact hwrite rfl
    | rerun => exact columnsAre_runSteps hgood disabled (hwrite rfl) _
    | primed running =>
      rw [((Template.plan disabled follow).prime_model _ running).1]
      exact h
    | ended number ending l hl =>
      exact columnsAre_complete hgood disabled h
        (hf.tracked.known l (Resolver.lookup?_eq_some hl).1)
        (Template.holds_facets f.resolver hf.tracked) ending

/-- Acts that write no list of anything else keep the column lists lists of records. -/
theorem Sound.columnsAre_runActs (hgood : Admits good) (hf : f.Sound disabled)
    (h : ColumnsAre good f.resolver.model) {acts : List Act}
    (hacts : ∀ act ∈ acts, act.Writes good) :
    ColumnsAre good (f.runActs acts).resolver.model := by
  induction acts generalizing f with
  | nil => exact h
  | cons act rest ih =>
    exact ih (hf.act act) (hf.columnsAre_act hgood h (hacts act (.head _)))
      fun other hother => hacts other (.tail _ hother)

/-- A form of job parameters starts with lists of records. -/
theorem columnsAre_ofValues (hgood : Admits good) {values : Value}
    (h : ofValues values (taskForm disabled) = .ok f) : ColumnsAre good f.resolver.model := by
  obtain ⟨_, m, cs, -, rfl, hseeded⟩ := ofValues_spec h
  intro side v hv
  have hget : (onModel disabled m).resolver.model.get side.key = _ :=
    get_onModel m (side_paramKeys side).1
  rw [hseeded.columns side, Option.getD_some, Model.get_of_value? hv] at hget
  rw [hget]
  exact hgood.records (cs side)

/-- Exportable values are written out as columns. -/
theorem exists_exportColumns {v : Value} (h : v.IsExportable) :
    ∃ cs : List Column, exportColumns v = .ok (cs.map Column.toValue) := by
  rcases h with hblank | ⟨cs, rfl⟩
  · refine ⟨[], ?_⟩
    unfold exportColumns Value.orElse
    rw [if_neg (by simp [hblank])]
    rfl
  · exact ⟨cs, exportColumns_list cs⟩

end Form

/-! ## Checks of records -/

/-- A payload is given and no text. -/
def Column.Illegible (c : Column) : Prop :=
  c.payload.isTrue = true ∧ ∀ s, c.payload ≠ .text s

/-- Looking at the payload of a record fails just where it is given and no text. -/
theorem Column.hasPayload_eq_error {c : Column} {fault : Fault} :
    c.hasPayload = .error fault ↔ c.Illegible ∧ fault = .notJsonText c.payload.kind := by
  unfold ColumnOf.hasPayload Illegible
  rw [Value.datum_isTrue]
  by_cases hgiven : c.payload.isTrue = true
  · rw [if_pos hgiven]
    cases hpayload : c.payload with
    | text s =>
      refine iff_of_false (fun h => ?_) fun h => h.1.2 s rfl
      unfold ColumnOf.readPayload at h
      dsimp only [Datum.text?] at h
      split at h <;> cases h
    | _ =>
      rw [hpayload] at hgiven
      constructor
      · intro h
        cases h
        exact ⟨⟨hgiven, nofun⟩, rfl⟩
      · rintro ⟨-, rfl⟩
        rfl
  · rw [if_neg hgiven]
    exact iff_of_false nofun fun h => hgiven h.1.1

namespace Mapping

variable {has : Value → Except Fault Bool} {fault : Fault}

/-- Looking for an entry that lacks something fails just where looking at an entry does and all
entries before it have what is looked for. -/
theorem someLacks_eq_error {entries : List Value} : someLacks has entries = .error fault ↔
    ∃ before entry after, entries = before ++ entry :: after ∧
      (∀ other ∈ before, has other = .ok true) ∧ has entry = .error fault := by
  induction entries with
  | nil =>
    refine iff_of_false nofun ?_
    rintro ⟨before, entry, after, h, -⟩
    cases before <;> cases h
  | cons first rest ih =>
    have hsplit : (∃ before entry after, first :: rest = before ++ entry :: after ∧
        (∀ other ∈ before, has other = .ok true) ∧ has entry = .error fault) ↔
        has first = .error fault ∨ has first = .ok true ∧
          ∃ before entry after, rest = before ++ entry :: after ∧
            (∀ other ∈ before, has other = .ok true) ∧ has entry = .error fault := by
      constructor
      · rintro ⟨before, entry, after, h, hbefore, hentry⟩
        cases before with
        | nil =>
          cases h
          exact .inl hentry
        | cons other before =>
          cases h
          exact .inr ⟨hbefore _ (.head _), before, entry, after, rfl,
            fun other hother => hbefore other (.tail _ hother), hentry⟩
      · rintro (hfirst | ⟨hfirst, before, entry, after, rfl, hbefore, hentry⟩)
        · exact ⟨[], first, rest, rfl, nofun, hfirst⟩
        · exact ⟨first :: before, entry, after, rfl,
            List.forall_mem_cons.2 ⟨hfirst, hbefore⟩, hentry⟩
    rw [hsplit, ← ih, someLacks]
    cases hfirst : has first with
    | error cause =>
      constructor
      · exact fun h => .inl h
      · rintro (h | ⟨h, -⟩)
        · exact h
        · cases h
    | ok given =>
      cases given with
      | false => exact iff_of_false nofun nofun
      | true =>
        constructor
        · exact fun h => .inr ⟨rfl, h⟩
        · rintro (h | ⟨-, h⟩)
          · cases h
          · exact h

/-- No entry lacks what is looked for just where all have it. -/
theorem someLacks_eq_false {entries : List Value} :
    someLacks has entries = .ok false ↔ ∀ entry ∈ entries, has entry = .ok true := by
  induction entries with
  | nil => exact iff_of_true rfl nofun
  | cons first rest ih =>
    rw [List.forall_mem_cons, ← ih, someLacks]
    cases hfirst : has first with
    | error cause => exact iff_of_false nofun nofun
    | ok given =>
      cases given with
      | false => exact iff_of_false nofun nofun
      | true => exact ⟨fun h => ⟨rfl, h⟩, fun h => h.2⟩

/-- Looking for a record that lacks something fails just where looking at a record does and all
records before it have what is looked for. -/
theorem someLacks_records {cs : List Column} :
    someLacks has (cs.map .column) = .error fault ↔ ∃ before c after, cs = before ++ c :: after ∧
      (∀ b ∈ before, has (.column b) = .ok true) ∧ has (.column c) = .error fault := by
  rw [someLacks_eq_error]
  constructor
  · rintro ⟨before, entry, after, hsplit, hbefore, hentry⟩
    obtain ⟨before, rest, rfl, rfl, hrest⟩ := List.map_eq_append_iff.1 hsplit
    obtain ⟨c, after, rfl, rfl, rfl⟩ := List.map_eq_cons_iff.1 hrest
    exact ⟨before, c, after, rfl, List.forall_mem_map.1 hbefore, hentry⟩
  · rintro ⟨before, c, after, rfl, hbefore, hc⟩
    refine ⟨before.map .column, .column c, after.map .column, ?_, List.forall_mem_map.2 hbefore, hc⟩
    rw [List.map_append, List.map_cons]

/-- Names and types are looked for among records without a fault. -/
theorem exists_someLacks (has : Value → Except Fault Bool) {given : Column → Bool}
    (hhas : ∀ c, has (.column c) = .ok (given c)) (cs : List Column) :
    ∃ lacks, someLacks has (cs.map .column) = .ok lacks := by
  cases hlacks : someLacks has (cs.map .column) with
  | ok lacks => exact ⟨lacks, rfl⟩
  | error fault =>
    obtain ⟨-, c, -, -, -, hfails⟩ := someLacks_records.1 hlacks
    rw [hhas c] at hfails
    cases hfails

/-- Where the target takes no free-form records, a check of records answers. -/
theorem exists_check (source target : List Column) :
    ∃ answer, check (.list (source.map .column)) (.list (target.map .column)) false =
      .ok answer := by
  obtain ⟨unnamed, hunnamed⟩ := exists_someLacks hasName (fun c => rfl) source
  obtain ⟨unnamed', hunnamed'⟩ := exists_someLacks hasName (fun c => rfl) target
  obtain ⟨untyped, huntyped⟩ := exists_someLacks hasType (fun c => rfl) source
  obtain ⟨untyped', huntyped'⟩ := exists_someLacks hasType (fun c => rfl) target
  simp only [check, Value.toSequence, bind, Except.bind, pure, Except.pure, hunnamed, hunnamed',
    huntyped, huntyped']
  cases unnamed <;> cases unnamed' <;> cases untyped <;> cases untyped' <;> exact ⟨_, rfl⟩

/-- A check of records fails just where the target takes free-form records, all source records are
named, and the first target record without a readable payload has one that is given and no text. -/
theorem check_eq_error {source target : List Column} {singleSink : Bool} :
    check (.list (source.map .column)) (.list (target.map .column)) singleSink = .error fault ↔
      singleSink = true ∧ (∀ c ∈ source, c.name.isTrue = true) ∧
        ∃ before c after, target = before ++ c :: after ∧
          (∀ b ∈ before, b.hasPayload = .ok true) ∧ c.Illegible ∧
            fault = .notJsonText c.payload.kind := by
  have hlook (c : Column) : hasPayload (.column c) = c.hasPayload := rfl
  have hpayload : someLacks hasPayload (target.map .column) = .error fault ↔ _ := someLacks_records
  simp only [hlook, Column.hasPayload_eq_error] at hpayload
  rw [← hpayload]
  cases singleSink with
  | false =>
    obtain ⟨answer, hanswer⟩ := exists_check source target
    simp [hanswer]
  | true =>
    obtain ⟨unnamed, hunnamed⟩ := exists_someLacks hasName (fun c => rfl) source
    have hnamed : (∀ c ∈ source, c.name.isTrue = true) ↔ unnamed = false := by
      have hlacks : someLacks hasName (source.map .column) = .ok false ↔ _ := someLacks_eq_false
      rw [hunnamed, List.forall_mem_map] at hlacks
      constructor
      · exact fun h => Except.ok.inj (hlacks.2 fun c hc => congrArg Except.ok (h c hc))
      · rintro rfl c hc
        exact Except.ok.inj (hlacks.1 rfl c hc)
    rw [hnamed]
    simp only [check, Value.toSequence, bind, Except.bind, pure, Except.pure, hunnamed, if_true]
    cases unnamed with
    | true => simp
    | false =>
      cases hlacks : someLacks hasPayload (target.map .column) with
      | ok lacks => cases lacks <;> simp
      | error cause =>
        constructor
        · intro h
          cases h
          exact ⟨trivial, rfl, rfl⟩
        · rintro ⟨-, -, h⟩
          cases h
          rfl

/-- The check of a model whose lists the editor reads as records fails only where a payload is no
text. -/
theorem Shown.validate {m : Model} {listed : Side → Prop} {records : Side → List Column}
    (h : Shown m listed records) {singleSink : Bool} {fault : Fault}
    (hfails : (Mapping.validate m singleSink).result = .error fault) :
    ∃ kind, fault = .notJsonText kind := by
  have hget (side : Side) :
      (Mapping.repairBoth m).get side.key = .list ((records side).map .column) := by
    rw [Model.get_of_value? (value?_repairBoth m side), h.items]
  unfold Mapping.validate at hfails
  dsimp only at hfails
  rw [hget, hget] at hfails
  obtain ⟨-, -, -, c, -, -, -, -, rfl⟩ := check_eq_error.1 hfails
  exact ⟨_, rfl⟩

end Mapping

namespace Template

/-- Column lists stay lists of records while the user writes no list of anything else. In every state
that acts on a form of job parameters then reach, the mapping editor reads records from both lists.
Its summary succeeds, and its check fails only on a payload that is no text. If what the user writes
is moreover a list of records or does not count as given, the export succeeds. -/
theorem records_run (disabled : List String) {values : Value} {f : Form}
    (hf : Form.ofValues values (taskForm disabled) = .ok f) {acts : List Act}
    (hacts : ∀ act ∈ acts, act.Writes Value.IsReadable) :
    ∃ records : Side → List Column,
      (∀ side, Mapping.items (f.runActs acts).resolver.model side = (records side).map .column) ∧
      ((f.runActs acts).edit Mapping.summary).2 = .ok (summaryOf records) ∧
      (∀ singleSink fault,
        ((f.runActs acts).edit (Mapping.validate · singleSink)).2 = .error fault →
          ∃ kind, fault = .notJsonText kind) ∧
      ((∀ act ∈ acts, act.Writes Value.IsExportable) →
        ∃ params, ((f.runActs acts).toParams false).2 = .ok params) := by
  have hsound := Form.sound_ofValues hf
  obtain ⟨records, hshown⟩ := (hsound.columnsAre_runActs admits_readable
    (Form.columnsAre_ofValues admits_readable hf) hacts).shown admits_readable
  refine ⟨records, hshown.items, hshown.summary, fun _ _ hfails => hshown.validate hfails, ?_⟩
  intro hexportable
  have hcolumns := hsound.columnsAre_runActs admits_exportable
    (Form.columnsAre_ofValues admits_exportable hf) hexportable
  have hheld (key : String) (hkey : key ∈ paramKeys) :=
    Form.holds_runActs hf acts hkey
  have hexport : ∀ side : Side, ∃ cs : List Column,
      Form.exportColumns ((f.runActs acts).resolver.model.get side.key) =
        .ok (cs.map Column.toValue) := by
    intro side
    obtain ⟨v, hv⟩ := Model.exists_value? (hheld side.key (side_paramKeys side).1)
    rw [Model.get_of_value? hv]
    exact Form.exists_exportColumns (hcolumns side v hv)
  choose cs hcs using hexport
  exact ⟨_, (Form.toParams_eq_ok (hsound.runActs acts).plan hheld).2 ⟨cs, hcs, rfl⟩⟩

/-- The parameters of a job with an empty source list. -/
def emptySource : Assoc Value :=
  [(Keys.sourceColumns, .list [])]

/-- What describes a record, but is none. -/
def describedRecord : Value :=
  .object [("columnName", .text "id")]

/-- The form of a job with an empty source list. -/
def emptySourceForm : Form :=
  .onModel [] ((((Model.ofMembers emptySource).replace Keys.sourceColumns (.list [])).ensure
    Keys.sourceColumns (.list [])).ensure Keys.targetColumns (.list []))

/-- The form of a job with an empty source list can be built. -/
theorem ofValues_emptySource :
    Form.ofValues (.object emptySource) (taskForm []) = .ok emptySourceForm :=
  Form.ofValues_taskForm ..

/-- A record that the user writes is exported. -/
theorem records_run_record :
    Form.ofValues (.object emptySource) (taskForm []) = .ok emptySourceForm ∧ ∃ params,
      ((emptySourceForm.runActs [.step (.change Keys.sourceColumns (.list [.column Column.empty])
        true)]).toParams false).2 = .ok params := by
  have hacts {good : Value → Prop} (hgood : Admits good) : ∀ act ∈
      [Act.step (.change Keys.sourceColumns (.list [.column Column.empty]) true)],
      act.Writes good := by
    rintro act hact side value running rfl
    have hwritten := List.mem_singleton.1 hact
    simp only [Act.step.injEq, Step.change.injEq] at hwritten
    rw [hwritten.2.1]
    exact hgood.records [Column.empty]
  obtain ⟨-, -, -, -, hexport⟩ := records_run [] ofValues_emptySource (hacts admits_readable)
  exact ⟨ofValues_emptySource, hexport (hacts admits_exportable)⟩

/-- The user writes a list of an object that describes a record. -/
def writeDescribed : List Act :=
  [.step (.change Keys.sourceColumns (.list [describedRecord]) true)]

/-- What describes a record is not read as one when the user writes it: it stays an object, and the
export fails on it. -/
theorem unread_entry :
    Form.ofValues (.object emptySource) (taskForm []) = .ok emptySourceForm ∧
      ((emptySourceForm.runActs writeDescribed).toParams false).2 =
        .error (.lacks "dict" "to_dict") := by
  refine ⟨ofValues_emptySource, ?_⟩
  have hfails : (match ((emptySourceForm.runActs writeDescribed).toParams false).2 with
      | .error (.lacks kind field) => kind == "dict" && field == "to_dict"
      | _ => false) = true := by
    decide +kernel
  split at hfails
  · next kind field heq =>
    rw [Bool.and_eq_true, beq_iff_eq, beq_iff_eq] at hfails
    rw [heq, hfails.1, hfails.2]
  · cases hfails

end Template

end SyncForm
