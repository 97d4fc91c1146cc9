import SyncForm.Proofs.ColumnRecords
import SyncForm.Proofs.Findings

/-!
# Where rules stumble

While the user writes no list of anything but records, the rules answer on all values but two kinds
(`Rule.Stumbles`): the partitions of a table that are given as an atom, and a payload that is given
and is no text. A validation of the task form fails just where a rule of a field shown stumbles on
what the field shows, and with its fault; otherwise it answers with the messages
(`Template.rules_run`). `Template.rules_stumble` are two forms, right after the import of their
parameters, whose validation fails.
-/

namespace SyncForm

/-! ## The rules -/

/-- A rule stumbles: it is to list the entries of an atom, or a payload that is given and no text is
to be read, after all that is looked at before it was found complete. -/
inductive Rule.Stumbles (records : Side → List Column) (singleSink : Bool) (value : Value) :
    Rule → Fault → Prop
  | atom : value.isTrue = true → value.isAtom = true →
    Stumbles records singleSink value .partitionValues (.notIterable value.kind)
  | payload {before after : List Column} {c : Column} : singleSink = true →
    (∀ b ∈ records .source, b.name.isTrue = true) → records .target = before ++ c :: after →
    (∀ b ∈ before, b.hasPayload = .ok true) → c.Illegible →
    Stumbles records singleSink value .fieldMapping (.notJsonText c.payload.kind)

/-- A model holds records under both column keys, or nothing that counts as given. -/
def Model.Lists (m : Model) (records : Side → List Column) : Prop :=
  ∀ side : Side, (m.get side.key).orElse (.list []) = .list ((records side).map .column)

/-- A model whose column lists are exportable holds records. -/
theorem ColumnsAre.lists {m : Model} (h : ColumnsAre Value.IsExportable m) :
    ∃ records, m.Lists records := by
  have hside : ∀ side : Side, ∃ cs : List Column,
      (m.get side.key).orElse (.list []) = .list (cs.map .column) := by
    intro side
    unfold Model.get Value.orElse
    cases hvalue : m.value? side.key with
    | none => exact ⟨[], rfl⟩
    | some v =>
      rw [Option.getD_some]
      split
      · next hgiven =>
        rcases h side v hvalue with hblank | hrecords
        · rw [hblank] at hgiven
          cases hgiven
        · exact hrecords
      · exact ⟨[], rfl⟩
  choose records hrecords using hside
  exact ⟨records, hrecords⟩

/-- The partitions cannot be checked just where they are given as an atom. -/
theorem Rule.checkPartitions_eq_error {value : Value} {fault : Fault} :
    checkPartitions value = .error fault ↔
      value.isTrue = true ∧ value.isAtom = true ∧ fault = .notIterable value.kind := by
  unfold checkPartitions
  by_cases hgiven : value.isTrue = true
  · rw [if_pos hgiven]
    cases hentries : value.toSequence with
    | error cause =>
      obtain ⟨hatom, rfl⟩ := Value.toSequence_eq_error.1 hentries
      constructor
      · intro h
        cases h
        exact ⟨hgiven, hatom, rfl⟩
      · rintro ⟨-, -, rfl⟩
        rfl
    | ok entries =>
      refine iff_of_false (fun h => ?_) fun ⟨_, hatom, _⟩ => ?_
      · simp only [bind, Except.bind] at h
        split at h <;> cases h
      · cases hentries.symm.trans (Value.toSequence_eq_error.2 ⟨hatom, rfl⟩)
  · rw [if_neg hgiven]
    exact iff_of_false nofun fun h => hgiven h.1

/-- On a model that holds records, a rule fails just where it stumbles. -/
theorem Rule.check_eq_error {m : Model} {records : Side → List Column} (h : m.Lists records)
    {rule : Rule} {value : Value} {fault : Fault} : rule.check value m = .error fault ↔
      rule.Stumbles records (Mapping.isSingleSink m) value fault := by
  cases rule with
  | partitionValues =>
    refine checkPartitions_eq_error.trans ⟨?_, ?_⟩
    · rintro ⟨hgiven, hatom, rfl⟩
      exact .atom hgiven hatom
    · rintro (⟨hgiven, hatom⟩ | _)
      exact ⟨hgiven, hatom, rfl⟩
  | number => exact iff_of_false nofun nofun
  | localParams => exact iff_of_false nofun nofun
  | fieldMapping =>
    have hsource : (m.get Keys.sourceColumns).orElse (.list []) = _ := h .source
    have htarget : (m.get Keys.targetColumns).orElse (.list []) = _ := h .target
    unfold check checkMapping
    dsimp only
    rw [hsource, htarget, Mapping.check_eq_error]
    constructor
    · rintro ⟨hsink, hnamed, before, c, after, htarget, hbefore, hillegible, rfl⟩
      exact .payload hsink hnamed htarget hbefore hillegible
    · rintro (_ | ⟨hsink, hnamed, htarget, hbefore, hillegible⟩)
      exact ⟨hsink, hnamed, _, _, _, htarget, hbefore, hillegible, rfl⟩

/-! ## The verdict -/

namespace Form

/-- A verdict fails as the complaint about some field does. -/
theorem exists_of_verdict_error {m : Model} {fields : List Descriptor} {fault : Fault}
    (h : verdict m fields = .error fault) :
    ∃ d ∈ fields, complaint d (d.shownValue m) m = .error fault := by
  induction fields with
  | nil => cases h
  | cons first rest ih =>
    have hlater : verdict m rest = .error fault →
        ∃ d ∈ first :: rest, complaint d (d.shownValue m) m = .error fault := fun hrest => by
      obtain ⟨d, hd, hfails⟩ := ih hrest
      exact ⟨d, .tail _ hd, hfails⟩
    unfold verdict at h
    split at h
    · exact hlater h
    · split at h
      · next cause hcause =>
        cases h
        exact ⟨first, .head _, hcause⟩
      · exact hlater h
      · cases hrest : verdict m rest with
        | ok issues =>
          rw [hrest] at h
          cases h
        | error cause =>
          rw [hrest] at h
          cases h
          exact hlater hrest

end Form

namespace Template

variable (disabled : List String) {d : Descriptor}

/-- A field of the task form has one rule at most, which never fails where the field is required, and
keys if it has a rule. -/
theorem rules_taskForm (hd : d ∈ taskForm disabled) : d.rules.length ≤ 1 ∧
    (d.required = true → ∀ rule ∈ d.rules, rule = .number) ∧
    (d.modelKeys = [] → d.rules = []) := by
  -- Rules and keys are the same in all task forms, so the fields of one are looked through.
  have hall : ∀ e ∈ (taskForm []).map Descriptor.unloaded, e.rules.length ≤ 1 ∧
      (e.required = true → ∀ rule ∈ e.rules, rule = .number) ∧
      (e.modelKeys = [] → e.rules = []) := by
    decide +kernel
  rw [← unloaded_taskForm disabled] at hall
  exact hall d.unloaded (List.mem_map_of_mem hd)

/-- The complaint about a field of the task form fails just where a rule of it does. -/
theorem complaint_eq_error (hd : d ∈ taskForm disabled) {value : Value} {m : Model}
    {fault : Fault} : Form.complaint d value m = .error fault ↔
      ∃ rule ∈ d.rules, rule.check value m = .error fault := by
  obtain ⟨hone, hrequired, -⟩ := rules_taskForm disabled hd
  unfold Form.complaint
  split
  · next hblank =>
    refine iff_of_false nofun ?_
    rintro ⟨rule, hrule, hfails⟩
    rw [hrequired (Bool.and_eq_true_iff.1 hblank).1 rule hrule] at hfails
    cases hfails
  · match hrules : d.rules with
    | [] => simp [Form.firstComplaint]
    | [rule] =>
      simp only [List.mem_singleton, exists_eq_left, Form.firstComplaint]
      cases rule.check value m with
      | error cause => simp [bind, Except.bind]
      | ok answer => cases answer <;> simp [bind, Except.bind, pure, Except.pure]
    | _ :: _ :: _ =>
      rw [hrules] at hone
      exact absurd hone (by simp)

/-- While the user writes no list of anything but records, a rule fails on a value just where it
stumbles. In every state that acts on a form of job parameters then reach, a validation answers with
its messages just where no rule of a field shown stumbles on what the field shows; otherwise it fails
as such a rule does. -/
theorem rules_run {values : Value} {f : Form}
    (hf : Form.ofValues values (taskForm disabled) = .ok f) {acts : List Act}
    (hacts : ∀ act ∈ acts, act.Writes Value.IsExportable) :
    ∃ records shown, (f.runActs acts).resolver.model.Lists records ∧
      (f.runActs acts).visibleFields = .ok shown ∧
      let m := (f.runActs acts).resolver.model
      let stumbles := fun (rule : Rule) value => rule.Stumbles records (Mapping.isSingleSink m) value
      (∀ rule value fault, rule.check value m = .error fault ↔ stumbles rule value fault) ∧
      (∀ fault, (f.runActs acts).validate.2 = .error fault →
        ∃ d ∈ shown, ∃ rule ∈ d.rules, stumbles rule (d.shownValue m) fault) ∧
      ((∃ issues, (f.runActs acts).validate.2 = .ok issues) ↔
        ∀ d ∈ shown, ∀ rule ∈ d.rules, ∀ fault, ¬ stumbles rule (d.shownValue m) fault) := by
  have hcolumns := (Form.sound_ofValues hf).columnsAre_runActs admits_exportable
    (Form.columnsAre_ofValues admits_exportable hf) hacts
  obtain ⟨records, hrecords⟩ := hcolumns.lists
  have hlaid := Form.laid_runActs hf acts
  refine ⟨records, _, hrecords, hlaid.visibleFields, ?_⟩
  intro m stumbles
  have hrule {rule : Rule} {value : Value} {fault : Fault} :
      rule.check value m = .error fault ↔ stumbles rule value fault := Rule.check_eq_error hrecords
  have hmember {d : Descriptor} (hd : d ∈ shownFields disabled m) : d ∈ taskForm disabled :=
    (List.mem_filter.1 hd).1
  have hfails : ∀ fault, (f.runActs acts).validate.2 = .error fault →
      ∃ d ∈ shownFields disabled m, ∃ rule ∈ d.rules, stumbles rule (d.shownValue m) fault := by
    intro fault hfault
    rw [hlaid.validate_eq_verdict] at hfault
    obtain ⟨d, hd, hcomplaint⟩ := Form.exists_of_verdict_error hfault
    obtain ⟨rule, hmem, hcheck⟩ := (complaint_eq_error disabled (hmember hd)).1 hcomplaint
    exact ⟨d, hd, rule, hmem, hrule.1 hcheck⟩
  refine ⟨fun _ _ _ => hrule, hfails, ?_, fun h => ?_⟩
  · rintro ⟨issues, hissues⟩ d hd rule hmem fault hstumbles
    have hkeys : d.modelKeys ≠ [] := fun hempty => by
      rw [(rules_taskForm disabled (hmember hd)).2.2 hempty] at hmem
      cases hmem
    obtain ⟨answer, hfound⟩ := hlaid.exists_finding hissues hd hkeys
    cases (hlaid.finding_spec hfound).2.2.symm.trans ((complaint_eq_error disabled (hmember hd)).2
      ⟨rule, hmem, hrule.2 hstumbles⟩)
  · cases hresult : (f.runActs acts).validate.2 with
    | ok issues => exact ⟨issues, rfl⟩
    | error fault =>
      obtain ⟨d, hd, rule, hmem, hstumbles⟩ := hfails fault hresult
      exact absurd hstumbles (h d hd rule hmem fault)

/-- The user writes a list of a record. -/
def writeRecord : List Act :=
  [.step (.change Keys.sourceColumns (.list [.column Column.empty]) true)]

/-- After the user wrote a record, a validation answers. -/
theorem rules_run_record :
    Form.ofValues (.object emptySource) (taskForm []) = .ok emptySourceForm ∧
      ∃ issues, (emptySourceForm.runActs writeRecord).validate.2 = .ok issues := by
  have hacts : ∀ act ∈ writeRecord, act.Writes Value.IsExportable := by
    rintro act hact side value running rfl
    have hwritten := List.mem_singleton.1 hact
    simp only [Act.step.injEq, Step.change.injEq] at hwritten
    rw [hwritten.2.1]
    exact admits_exportable.records [Column.empty]
  obtain ⟨records, shown, -, hvisible, hrule, -, hanswers⟩ := rules_run [] ofValues_emptySource hacts
  have hlaid := Form.laid_runActs ofValues_emptySource writeRecord
  obtain rfl := Except.ok.inj (hlaid.visibleFields.symm.trans hvisible)
  have hchecks : ∀ d ∈ shownFields [] (emptySourceForm.runActs writeRecord).resolver.model,
      ∀ rule ∈ d.rules,
        (rule.check (d.shownValue (emptySourceForm.runActs writeRecord).resolver.model)
          (emptySourceForm.runActs writeRecord).resolver.model).toOption.isSome = true := by
    decide +kernel
  refine ⟨ofValues_emptySource, hanswers.2 fun d hd rule hmem fault hstumbles => ?_⟩
  have hcheck := hchecks d hd rule hmem
  rw [(hrule rule _ fault).2 hstumbles] at hcheck
  cases hcheck

/-- The parameters of a job whose partitions are a number. -/
def numberedPartitions : Assoc Value :=
  [(Keys.sourceType, .text Datasource.hive), (Keys.sourcePartitions, .int 5)]

/-- The parameters of a job with a record whose payload is an object. -/
def objectPayload : Assoc Value :=
  [(Keys.targetType, .text Datasource.elasticsearch),
    (Keys.targetColumns, .list [.object [("json", .object [("a", .int 1)])]])]

/-- Job parameters make forms on which a rule stumbles, and their validation fails. -/
theorem rules_stumble :
    (∃ f fault, Form.ofValues (.object numberedPartitions) (taskForm []) = .ok f ∧
      f.validate.2 = .error fault ∧ fault.text = "'int' object is not iterable") ∧
    ∃ f fault, Form.ofValues (.object objectPayload) (taskForm []) = .ok f ∧
      f.validate.2 = .error fault ∧
        fault.text = "the JSON object must be str, bytes or bytearray, not dict" := by
  have hfails {params : Assoc Value} {f : Form} {text : String}
      (hf : Form.ofValues (.object params) (taskForm []) = .ok f)
      (h : (match f.validate.2 with
        | .error fault => some fault.text
        | .ok _ => none) = some text) :
      ∃ f fault, Form.ofValues (.object params) (taskForm []) = .ok f ∧
        f.validate.2 = .error fault ∧ fault.text = text := by
    split at h
    · next fault heq => exact ⟨f, fault, hf, heq, Option.some.inj h⟩
    · cases h
  constructor
  · refine hfails (Form.ofValues_taskForm ..) ?_
    decide +kernel
  · refine hfails (Form.ofValues_taskForm ..) ?_
    decide +kernel

end Template

end SyncForm
