import SyncForm.Proofs.Import
import SyncForm.Proofs.Nesting

/-!
# Importing and exporting job parameters

An export of the task form writes out a table of values: the two column lists as the task runner
reads them, all other values as they are (`Model.exported`, `Form.toParams_eq_ok`). An import takes
over what is given without objects and not overridden, and adds the defaults (`Template.Imported`). So
no such parameter is lost between an import and an export (`Template.kept_exportAfter`), and an export
is reproduced by importing and exporting it again just where it holds no object and no record that
reading it would change (`Template.exportAfter_exportAfter`, `Template.importable_of_exportAfter`).
-/

namespace SyncForm

namespace Template

/-- No exported key goes through another one. -/
theorem unmixed_paramKeys : Unmixed paramKeys :=
  unmixed_of_all (by decide +kernel)

/-- Both column lists are exported, at top level. -/
theorem side_paramKeys (side : Side) : side.key ∈ paramKeys ∧ splitPath side.key = none := by
  cases side <;> exact ⟨by decide +kernel, rfl⟩

/-- The exported keys are keys of fields. -/
theorem owned_paramKeys (disabled : List String) {react : Reaction} {key : String}
    (hkey : key ∈ paramKeys) : (plan disabled react).ownedKeys.contains key = true := by
  have hall : paramKeys.all (plan [] Reaction.none).ownedKeys.contains = true := by decide +kernel
  rw [ownedKeys_plan]
  exact List.all_eq_true.1 hall key hkey

/-- No default of the task form is an object. -/
theorem usual_not_object (disabled : List String) (react : Reaction) (key : String) :
    ((plan disabled react).usual key).isObject = false := by
  have hall : (plan disabled react).descriptors.all (!·.usual.isObject) = true := rfl
  unfold Plan.usual Plan.owner?
  cases howner : (plan disabled react).descriptors.reverse.find? (·.modelKeys.contains key) with
  | none => rfl
  | some d =>
    have hd := List.mem_reverse.1 (List.mem_of_find?_eq_some howner)
    simpa using List.all_eq_true.1 hall d hd

end Template

/-! ## What an export writes -/

/-- What an export writes under a key: the column lists as the task runner reads them, all other
values as they are. -/
def Model.exported (m : Model) (cs : Side → List Column) (key : String) : Value :=
  if key = Keys.targetColumns then .list ((cs .target).map Column.toValue)
  else if key = Keys.sourceColumns then .list ((cs .source).map Column.toValue)
  else m.get key

/-- An export writes the records of a column list. -/
theorem Model.exported_key (m : Model) (cs : Side → List Column) (side : Side) :
    m.exported cs side.key = .list ((cs side).map Column.toValue) := by
  cases side with
  | source =>
    have hne : Side.source.key ≠ Keys.targetColumns := by decide
    rw [exported, if_neg hne]
    exact if_pos rfl
  | target => exact if_pos rfl

/-- An export writes any other value as it is. -/
theorem Model.exported_of_ne (m : Model) (cs : Side → List Column) {key : String}
    (hkey : ∀ side : Side, key ≠ side.key) : m.exported cs key = m.get key := by
  have hsource : key ≠ Keys.sourceColumns := hkey .source
  have htarget : key ≠ Keys.targetColumns := hkey .target
  rw [exported, if_neg htarget, if_neg hsource]

/-- Writing the column lists over the values of some keys writes the table with these lists. -/
theorem Model.put_exported (m : Model) {keys : List String} (hkeys : Unmixed keys)
    (hlists : ∀ side : Side, side.key ∈ keys ∧ splitPath side.key = none)
    (cs : Side → List Column) :
    Assoc.put (Assoc.put (nestAll m.get keys) Keys.sourceColumns
        (.list ((cs .source).map Column.toValue))) Keys.targetColumns
          (.list ((cs .target).map Column.toValue)) = nestAll (m.exported cs) keys := by
  obtain ⟨hsource, hplain⟩ := hlists .source
  obtain ⟨htarget, hplain'⟩ := hlists .target
  have hfirst := put_nestAll (g := m.get) hkeys hplain hsource
    (.list ((cs .source).map Column.toValue))
  refine (congrArg (Assoc.put · Keys.targetColumns _) hfirst).trans ?_
  exact put_nestAll hkeys hplain' htarget _

namespace Form

/-- An export writes the two column lists over the values of the keys, if both hold records. -/
theorem exportParams_eq_ok {f : Form} {keys : List String}
    (hkeys : (f.plan.descriptors.filter (·.kind != .divider)).flatMap (·.modelKeys) = keys)
    {members : Assoc Value} {m : Model} (hexport : f.resolver.model.exportKeys keys = (members, m))
    {params : Assoc Value} :
    f.exportParams.2 = .ok params ↔ ∃ source target,
      exportColumns (m.get Keys.sourceColumns) = .ok source ∧
      exportColumns (m.get Keys.targetColumns) = .ok target ∧
      params = Assoc.put (Assoc.put members Keys.sourceColumns (.list source))
        Keys.targetColumns (.list target) := by
  unfold exportParams
  rw [hkeys]
  dsimp only
  rw [hexport]
  dsimp only
  cases exportColumns (m.get Keys.sourceColumns) with
  | error fault =>
    refine iff_of_false (fun h => by cases h) ?_
    rintro ⟨source, target, hsource, -⟩
    cases hsource
  | ok source =>
    cases exportColumns (m.get Keys.targetColumns) with
    | error fault =>
      refine iff_of_false (fun h => by cases h) ?_
      rintro ⟨source, target, -, htarget, -⟩
      cases htarget
    | ok target =>
      constructor
      · intro h
        exact ⟨source, target, rfl, rfl, (Except.ok.inj h).symm⟩
      · rintro ⟨source', target', hsource, htarget, rfl⟩
        cases hsource
        cases htarget
        rfl

variable {disabled : List String}

/-- A form of the task table exports a table of its values just where its column lists hold
records. -/
theorem toParams_eq_ok {react : Reaction} {f : Form}
    (hplan : f.plan = Template.plan disabled react)
    (hheld : ∀ key ∈ Template.paramKeys, f.resolver.model.holds key = true) {params : Assoc Value} :
    (f.toParams false).2 = .ok params ↔ ∃ cs : Side → List Column,
      (∀ side : Side,
        exportColumns (f.resolver.model.get side.key) = .ok ((cs side).map Column.toValue)) ∧
      params = nestAll (f.resolver.model.exported cs) Template.paramKeys := by
  have hexport : f.resolver.model.exportKeys Template.paramKeys =
      (nestAll f.resolver.model.get Template.paramKeys, f.resolver.model) := by
    refine Model.exportKeys_eq (fun key hkey => ?_) Template.unmixed_paramKeys
    obtain ⟨value, hvalue⟩ := Model.exists_value? (hheld key hkey)
    rw [hvalue, Model.get_of_value? hvalue]
  have hput := Model.put_exported f.resolver.model Template.unmixed_paramKeys Template.side_paramKeys
  refine (exportParams_eq_ok (Template.exportedKeys_eq disabled f hplan) hexport).trans ?_
  constructor
  · rintro ⟨source, target, hsource, htarget, hparams⟩
    obtain ⟨source, rfl⟩ := exists_of_exportColumns hsource
    obtain ⟨target, rfl⟩ := exists_of_exportColumns htarget
    obtain ⟨cs, rfl, rfl⟩ : ∃ cs : Side → List Column, cs .source = source ∧ cs .target = target :=
      ⟨fun side => side.rec source target, rfl, rfl⟩
    refine ⟨cs, ?_, hparams.trans (hput cs)⟩
    rintro (_ | _)
    · exact hsource
    · exact htarget
  · rintro ⟨cs, hcs, hparams⟩
    exact ⟨_, _, hcs .source, hcs .target, hparams.trans (hput cs).symm⟩

/-- A form of job parameters with the task table holds the exported keys, whatever is done to it. -/
theorem holds_runActs {values : Value} {f : Form}
    (h : ofValues values (Template.taskForm disabled) = .ok f) (acts : List Act) {key : String}
    (hkey : key ∈ Template.paramKeys) : (f.runActs acts).resolver.model.holds key = true := by
  refine ((sound_ofValues h).sub_runActs acts).1.holds ?_
  obtain ⟨m, rfl, -⟩ := exists_onModel h
  exact (Template.plan disabled follow).holds_begun m (Template.owned_paramKeys disabled hkey)

/-- The form of the task table on a model keeps the values of the model and adds the defaults. -/
theorem get_onModel (m : Model) {key : String} (hkey : key ∈ Template.paramKeys) :
    (onModel disabled m).resolver.model.get key =
      (m.value? key).getD ((Template.plan disabled follow).usual key) := by
  rw [Model.get, onModel, Plan.value?_begun, if_pos (Template.owned_paramKeys disabled hkey)]
  cases m.value? key <;> rfl

end Form

/-! ## The round trip -/

namespace Template

/-- The job parameters that a form of the task table exports, once it is built from given ones and
some acts are done. -/
def exportAfter (disabled : List String) (values : Value) (acts : List Act) :
    Except Fault (Assoc Value) := do
  let f ← Form.ofValues values (taskForm disabled)
  ((f.runActs acts).toParams false).2

/-- Exported parameters that an import takes over as they are: no exported key is given an object,
and the records of both column lists are in normal form. -/
structure Importable (params : Assoc Value) : Prop where
  plain : ∀ key ∈ paramKeys, ∀ v, given? params key = some v → v.isObject = false
  columns : ∀ side : Side, ∃ cs : List Column, (∀ c ∈ cs, c.Normal) ∧
    given? params side.key = some (.list (cs.map Column.toValue))

variable {disabled : List String}

/-- An export succeeds just where the form can be built and exported. -/
theorem exportAfter_eq_ok {values : Value} {acts : List Act} {params : Assoc Value} :
    exportAfter disabled values acts = .ok params ↔ ∃ f,
      Form.ofValues values (taskForm disabled) = .ok f ∧
        ((f.runActs acts).toParams false).2 = .ok params := by
  unfold exportAfter
  cases Form.ofValues values (taskForm disabled) with
  | error fault => exact iff_of_false (fun h => by cases h) fun ⟨_, h, _⟩ => by cases h
  | ok f =>
    constructor
    · exact fun h => ⟨f, rfl, h⟩
    · rintro ⟨g, hg, h⟩
      cases hg
      exact h

/-- What the user writes under a key that triggers nothing and is no column list is exported. -/
theorem given?_change {values : Value} {acts : List Act} {params : Assoc Value}
    (h : exportAfter disabled values acts = .ok params) {key : String} (hkey : key ∈ paramKeys)
    (hside : ∀ side : Side, key ≠ side.key)
    (hplain : (plan disabled Form.follow).trigger? key = none) (value : Value) (running : Bool) :
    ∃ written,
      exportAfter disabled values (acts ++ [.step (.change key value running)]) = .ok written ∧
        given? written key = some value := by
  obtain ⟨f, hf, hexport⟩ := exportAfter_eq_ok.1 h
  have hsound := (Form.sound_ofValues hf).runActs acts
  have hheld : ∀ acts, ∀ key ∈ paramKeys, (f.runActs acts).resolver.model.holds key = true :=
    fun acts _ hkey => Form.holds_runActs hf acts hkey
  have htaken : f.runActs (acts ++ [.step (.change key value running)]) =
      (f.runActs acts).take (.change key value running) := List.foldl_append
  obtain ⟨cs, hcs, -⟩ := (Form.toParams_eq_ok hsound.plan (hheld acts)).1 hexport
  have hvalues := hsound.value?_take_plain value running hplain (hheld acts key hkey) hside
  rw [← htaken] at hvalues
  have hwritten := (Form.toParams_eq_ok
    ((Form.sound_ofValues hf).runActs (acts ++ [.step (.change key value running)])).plan
    (hheld _)).2 ⟨cs, fun side => ?_, rfl⟩
  · refine ⟨_, exportAfter_eq_ok.2 ⟨f, hf, hwritten⟩, ?_⟩
    rw [given?_nestAll unmixed_paramKeys hkey, Model.exported_of_ne _ _ hside]
    exact congrArg some (Model.get_of_value? ((hvalues key).trans (if_pos rfl)))
  · rw [Model.get_congr ((hvalues side.key).trans (if_neg (hside side)))]
    exact hcs side

/-- The table that is exported right after an import: the records that the given column lists stand
for, all other values as they are given, and the defaults. -/
structure Imported (disabled : List String) (params : Assoc Value) (g : String → Value)
    (cs : Side → List Column) : Prop where
  lists : ∀ side : Side, g side.key = .list ((cs side).map Column.toValue)
  described : ∀ side : Side,
    Describes (((Model.ofMembers params).value? side.key).getD (.list [])) (cs side)
  others : ∀ key ∈ paramKeys, (∀ side : Side, key ≠ side.key) →
    g key = ((Model.ofMembers params).value? key).getD ((plan disabled Form.follow).usual key)

/-- A form of job parameters can be exported. -/
theorem exists_imported {params : Assoc Value} {f : Form}
    (h : Form.ofValues (.object params) (taskForm disabled) = .ok f) :
    ∃ g cs, Imported disabled params g cs ∧
      exportAfter disabled (.object params) [] = .ok (nestAll g paramKeys) := by
  obtain ⟨given, m, cs, hgiven, rfl, hseeded⟩ := Form.ofValues_spec h
  obtain rfl : Model.ofMembers params = given :=
    Except.ok.inj ((Model.ofValue_object params).symm.trans hgiven)
  have hheld : ∀ key ∈ paramKeys, (Form.onModel disabled m).resolver.model.holds key = true :=
    fun key hkey => Form.holds_runActs h [] hkey
  refine ⟨(Form.onModel disabled m).resolver.model.exported cs, cs, ⟨Model.exported_key _ cs,
    hseeded.described, fun key hkey hside => ?_⟩, exportAfter_eq_ok.2 ⟨_, h,
    (Form.toParams_eq_ok rfl hheld).2 ⟨cs, fun side => ?_, rfl⟩⟩⟩
  · rw [Model.exported_of_ne _ _ hside, Form.get_onModel m hkey, hseeded.others key hside]
  · rw [Form.get_onModel m (side_paramKeys side).1, hseeded.columns side]
    exact Form.exportColumns_list (cs side)

/-- What is exported right after an import is such a table. -/
theorem imported_of_exportAfter {params written : Assoc Value}
    (h : exportAfter disabled (.object params) [] = .ok written) :
    ∃ g cs, Imported disabled params g cs ∧ written = nestAll g paramKeys := by
  obtain ⟨f, hf, -⟩ := exportAfter_eq_ok.1 h
  obtain ⟨g, cs, himported, hexport⟩ := exists_imported hf
  exact ⟨g, cs, himported, Except.ok.inj (h.symm.trans hexport)⟩

namespace Imported

variable {params : Assoc Value} {g : String → Value} {cs : Side → List Column}

/-- No value that is exported right after an import is an object. -/
theorem plain (h : Imported disabled params g cs) {key : String} (hkey : key ∈ paramKeys) :
    (g key).isObject = false := by
  by_cases hside : ∃ side : Side, key = side.key
  · obtain ⟨side, rfl⟩ := hside
    rw [h.lists side]
    rfl
  · rw [h.others key hkey (not_exists.1 hside)]
    cases hvalue : (Model.ofMembers params).value? key with
    | none => exact usual_not_object disabled Form.follow key
    | some v => exact not_object_of_leavesOfMembers params "" (Model.mem_leaves_of_value? hvalue)

/-- An import takes over what is exported right after another one. -/
theorem value? (h : Imported disabled params g cs) {key : String} (hkey : key ∈ paramKeys) :
    (Model.ofMembers (nestAll g paramKeys)).value? key = some (g key) :=
  Model.value?_ofMembers_nestAll unmixed_paramKeys (fun _ hkey => h.plain hkey) hkey

end Imported

/-- A key is exported right after an import with the value that it was given, or with its default. -/
theorem given?_exportAfter {params : Assoc Value} {f : Form}
    (h : Form.ofValues (.object params) (taskForm disabled) = .ok f) {key : String}
    (hkey : key ∈ paramKeys) (hside : ∀ side : Side, key ≠ side.key) :
    ∃ written, exportAfter disabled (.object params) [] = .ok written ∧
      given? written key = some (((Model.ofMembers params).value? key).getD
        ((plan disabled Form.follow).usual key)) := by
  obtain ⟨g, cs, himported, hexport⟩ := exists_imported h
  refine ⟨_, hexport, ?_⟩
  rw [given?_nestAll unmixed_paramKeys hkey, himported.others key hkey hside]

/-- A key has the value that it was given: a column list the records that it stands for, written out
in order, any other key that very value. -/
def Kept (written : Assoc Value) (key : String) (v : Value) : Prop :=
  ((∀ side : Side, key ≠ side.key) → given? written key = some v) ∧
  ∀ side : Side, key = side.key → ∃ cs, Describes v cs ∧
    given? written key = some (.list (cs.map Column.toValue))

/-- What job parameters give a key, but objects and what is overridden, is exported again. -/
theorem kept_exportAfter {params : Assoc Value} {f : Form}
    (h : Form.ofValues (.object params) (taskForm disabled) = .ok f) :
    ∃ written, exportAfter disabled (.object params) [] = .ok written ∧
      ∀ key ∈ paramKeys, ∀ v, given? params key = some v → v.isObject = false →
        ¬ Overridden params key v → Kept written key v := by
  obtain ⟨g, cs, himported, hexport⟩ := exists_imported h
  refine ⟨_, hexport, fun key hkey v hgiven hplain hlast => ?_⟩
  have hleaf : (key, v) ∈ leavesOfMembers "" params :=
    mem_leaves_of_given hgiven hplain fun above name hsplit =>
      (unmixed_paramKeys key hkey above name hsplit).2
  have hvalue : (Model.ofMembers params).value? key = some v :=
    Model.value?_ofMembers (lastLeaf_of_not_overridden hleaf hlast)
  refine ⟨fun hside => ?_, ?_⟩
  · rw [given?_nestAll unmixed_paramKeys hkey, himported.others key hkey hside, hvalue]
    rfl
  · rintro side rfl
    have hdescribes := himported.described side
    rw [hvalue] at hdescribes
    refine ⟨cs side, hdescribes, ?_⟩
    rw [given?_nestAll unmixed_paramKeys hkey, himported.lists side]

/-- An export that can be imported as it is is exported again by the form that is built from it. -/
theorem exportAfter_exportAfter {values : Value} {acts : List Act} {written : Assoc Value}
    (h : exportAfter disabled values acts = .ok written) (himportable : Importable written)
    (disabled' : List String) : exportAfter disabled' (.object written) [] = .ok written := by
  obtain ⟨f, hf, hexport⟩ := exportAfter_eq_ok.1 h
  obtain ⟨cs, -, hwritten⟩ := (Form.toParams_eq_ok ((Form.sound_ofValues hf).runActs acts).plan
    fun key hkey => Form.holds_runActs hf acts hkey).1 hexport
  generalize (f.runActs acts).resolver.model = m at hwritten
  have hgiven : ∀ key ∈ paramKeys, given? written key = some (m.exported cs key) :=
    fun key hkey => by rw [hwritten, given?_nestAll unmixed_paramKeys hkey]
  have himport : ∀ key ∈ paramKeys,
      (Model.ofMembers written).value? key = some (m.exported cs key) := by
    rw [hwritten]
    exact fun key hkey => Model.value?_ofMembers_nestAll unmixed_paramKeys
      (fun key hkey => himportable.plain key hkey _ (hgiven key hkey)) hkey
  have hlists : ∀ side : Side, Describes (m.exported cs side.key) (cs side) := by
    intro side
    obtain ⟨cs', hnormal, hcs'⟩ := himportable.columns side
    rw [hgiven _ (side_paramKeys side).1, Model.exported_key] at hcs'
    have hsame : (cs side).map Column.toValue = cs'.map Column.toValue :=
      Value.list.inj (Option.some.inj hcs')
    rw [Model.exported_key, List.map_injective_iff.2 Column.toValue_injective hsame]
    exact describes_toValue hnormal
  obtain ⟨again, hagain⟩ := Form.exists_ofValues disabled' (Model.ofValue_object written)
    fun side v hv => by
      rw [himport _ (side_paramKeys side).1] at hv
      exact ⟨cs side, Option.some.inj hv ▸ hlists side⟩
  obtain ⟨g, cs', himported, hexport'⟩ := exists_imported hagain
  rw [hexport', hwritten]
  -- Both exports write out one table: the lists stand for the same records, the rest is taken over.
  refine congrArg Except.ok (nestAll_congr fun key hkey => ?_)
  by_cases hside : ∃ side : Side, key = side.key
  · obtain ⟨side, rfl⟩ := hside
    have hdescribes := himported.described side
    rw [himport _ hkey] at hdescribes
    rw [himported.lists, Model.exported_key, (hlists side).unique hdescribes]
  · rw [himported.others key hkey (not_exists.1 hside), himport key hkey]
    rfl

/-- What is exported right after an import can be imported as it is, if the given lists describe
their records. -/
theorem importable_exportAfter {params written : Assoc Value}
    (h : exportAfter disabled (.object params) [] = .ok written)
    (hlists : ∀ (side : Side) entries,
      (Model.ofMembers params).value? side.key = some (.list entries) → ∀ c, .column c ∉ entries) :
    Importable written := by
  obtain ⟨g, cs, himported, hwritten⟩ := imported_of_exportAfter h
  rw [hwritten]
  refine ⟨fun key hkey v hv => ?_, fun side => ⟨cs side, ?_, ?_⟩⟩
  · rw [given?_nestAll unmixed_paramKeys hkey] at hv
    exact Option.some.inj hv ▸ himported.plain hkey
  · refine (himported.described side).normal fun entries hentries => ?_
    cases hvalue : (Model.ofMembers params).value? side.key with
    | none =>
      rw [hvalue] at hentries
      cases hentries
      exact fun _ => List.not_mem_nil
    | some v =>
      rw [hvalue] at hentries
      cases hentries
      exact hlists side entries hvalue
  · rw [given?_nestAll unmixed_paramKeys (side_paramKeys side).1, himported.lists side]

/-- Parameters that are exported as they were imported can be imported as they are. -/
theorem importable_of_exportAfter {written : Assoc Value}
    (h : exportAfter disabled (.object written) [] = .ok written) : Importable written := by
  obtain ⟨g, cs, himported, hwritten⟩ := imported_of_exportAfter h
  refine importable_exportAfter h fun side entries hentries c hc => ?_
  rw [hwritten, himported.value? (side_paramKeys side).1, himported.lists side] at hentries
  cases hentries
  obtain ⟨c', -, hc'⟩ := List.mem_map.1 hc
  cases hc'

/-- No job parameter is lost between an import and an export: if a form can be built from job
parameters, it exports them, and every exported key that they give a value keeps that value, but for
objects and for values that a later entry overrides. An export of any form of the task table,
whatever was done to it, is reproduced by importing and exporting it again just where it can be
imported as it is. -/
theorem roundTrip (disabled : List String) :
    (∀ params f, Form.ofValues (.object params) (taskForm disabled) = .ok f →
      ∃ written, exportAfter disabled (.object params) [] = .ok written ∧
        ∀ key ∈ paramKeys, ∀ v, given? params key = some v → v.isObject = false →
          ¬ Overridden params key v → Kept written key v) ∧
    ∀ values acts written, exportAfter disabled values acts = .ok written → ∀ disabled',
      (exportAfter disabled' (.object written) [] = .ok written ↔ Importable written) := by
  refine ⟨fun params f h => kept_exportAfter h, fun values acts written h disabled' => ?_⟩
  exact ⟨importable_of_exportAfter, fun hi => exportAfter_exportAfter h hi disabled'⟩

/-- The parameters of a job that reads the paid orders into an index. -/
def paidOrders : Assoc Value := [
  ("where", .text "paid = 1"),
  ("es_params", .object [("index", .text "orders")]),
  (Keys.sourceColumns, .list [.object [("columnName", .text "id")]])]

/-- A job keeps its filter, its index and its columns, and its export is reproduced. -/
theorem roundTrip_paidOrders :
    ∃ written, exportAfter [] (.object paidOrders) [] = .ok written ∧
      Kept written "where" (.text "paid = 1") ∧ Kept written "es_params.index" (.text "orders") ∧
      Kept written Keys.sourceColumns (.list [.object [("columnName", .text "id")]]) ∧
      exportAfter ["HIVE"] (.object written) [] = .ok written := by
  obtain ⟨f, hf⟩ : ∃ f, Form.ofValues (.object paidOrders) (taskForm []) = .ok f :=
    ⟨_, Form.ofValues_taskForm ..⟩
  obtain ⟨written, hwritten, hkept⟩ := (roundTrip []).1 paidOrders f hf
  have hleaves : leavesOfMembers "" paidOrders = [("where", .text "paid = 1"),
      ("es_params.index", .text "orders"),
      (Keys.sourceColumns, .list [.object [("columnName", .text "id")]])] := rfl
  have hpaths : ((leavesOfMembers "" paidOrders).map (·.1)).Nodup := by
    rw [hleaves]
    decide
  have hlast : ∀ {key v}, (key, v) ∈ leavesOfMembers "" paidOrders → ¬ Overridden paidOrders key v :=
    fun hmem => not_overridden_of_nodup hmem hpaths
  rw [hleaves] at hlast
  have himportable : Importable written := by
    refine importable_exportAfter hwritten fun side entries hentries c hc => ?_
    have hmem := Model.mem_leaves_of_value? hentries
    rw [hleaves] at hmem
    cases side with
    | source =>
      obtain rfl : entries = [.object [("columnName", .text "id")]] := by
        simpa [Side.key, Keys.sourceColumns] using hmem
      cases List.mem_singleton.1 hc
    | target => simp [Side.key, Keys.sourceColumns, Keys.targetColumns] at hmem
  refine ⟨written, hwritten, hkept _ (by decide +kernel) _ rfl rfl (hlast (.head _)),
    hkept _ (by decide +kernel) _ rfl rfl (hlast (.tail _ (.head _))),
    hkept _ (by decide +kernel) _ rfl rfl (hlast (.tail _ (.tail _ (.head _)))), ?_⟩
  exact ((roundTrip []).2 _ _ _ hwritten _).2 himportable

/-- An object is not kept, nor is a value that is overridden; and an export with an object, or with
a record that reading it changes, is not reproduced. -/
theorem params_lost :
    (let params : Assoc Value := [("where", .object [("a", .int 1)])]
     given? params "where" = some (.object [("a", .int 1)]) ∧
      ∃ written, exportAfter [] (.object params) [] = .ok written ∧
        given? written "where" = some (.text "")) ∧
    (let params : Assoc Value :=
       [("es_params", .object [("index", .text "a")]), ("es_params.index", .text "b")]
     given? params "es_params.index" = some (.text "a") ∧
      ∃ written, exportAfter [] (.object params) [] = .ok written ∧
        given? written "es_params.index" = some (.text "b")) ∧
    (∃ written, exportAfter [] (.object []) [.step (.change "where" (.object [("a", .int 1)]) true)] =
        .ok written ∧ exportAfter [] (.object written) [] ≠ .ok written) ∧
    ∃ written, exportAfter [] (.object [(Keys.sourceColumns,
        .list [.column { Column.empty with name := .bool false }])]) [] = .ok written ∧
      exportAfter [] (.object written) [] ≠ .ok written := by
  have hwhere : "where" ∈ paramKeys := by decide +kernel
  have hindex : "es_params.index" ∈ paramKeys := by decide +kernel
  have hside : ∀ side : Side, "where" ≠ side.key ∧ "es_params.index" ≠ side.key := by
    rintro (_ | _) <;> decide
  refine ⟨⟨rfl, ?_⟩, ⟨rfl, ?_⟩, ?_, ?_⟩
  · obtain ⟨f, hf⟩ : ∃ f, Form.ofValues (.object [("where", .object [("a", .int 1)])])
        (taskForm []) = .ok f := ⟨_, Form.ofValues_taskForm ..⟩
    exact given?_exportAfter hf hwhere fun side => (hside side).1
  · obtain ⟨f, hf⟩ : ∃ f, Form.ofValues (.object [("es_params", .object [("index", .text "a")]),
        ("es_params.index", .text "b")]) (taskForm []) = .ok f := ⟨_, Form.ofValues_taskForm ..⟩
    exact given?_exportAfter hf hindex fun side => (hside side).2
  · obtain ⟨f, hf⟩ : ∃ f, Form.ofValues (.object []) (taskForm []) = .ok f :=
      ⟨_, Form.ofValues_taskForm ..⟩
    obtain ⟨g, cs, -, hexport⟩ := exists_imported hf
    obtain ⟨written, hwritten, hgiven⟩ := given?_change hexport hwhere (fun side => (hside side).1)
      rfl (.object [("a", .int 1)]) true
    refine ⟨written, hwritten, fun hagain => ?_⟩
    have hplain := (importable_of_exportAfter hagain).plain _ hwhere _ hgiven
    cases hplain
  · let unnamed : Column := { Column.empty with name := .bool false }
    obtain ⟨f, hf⟩ : ∃ f, Form.ofValues (.object [(Keys.sourceColumns, .list [.column unnamed])])
        (taskForm []) = .ok f := ⟨_, Form.ofValues_taskForm ..⟩
    obtain ⟨g, cs, himported, hexport⟩ := exists_imported hf
    refine ⟨_, hexport, fun hagain => ?_⟩
    have hcs : cs .source = [unnamed] :=
      (himported.described .source).unique (.list (.cons (.inl rfl) .nil))
    obtain ⟨cs', hnormal, hcs'⟩ := (importable_of_exportAfter hagain).columns .source
    rw [given?_nestAll unmixed_paramKeys (side_paramKeys .source).1, himported.lists .source,
      hcs] at hcs'
    have hsame : [unnamed].map Column.toValue = cs'.map Column.toValue :=
      Value.list.inj (Option.some.inj hcs')
    rw [← List.map_injective_iff.2 Column.toValue_injective hsame] at hnormal
    rcases (hnormal unnamed (.head _)).name with hgiven | htext
    · cases hgiven
    · cases htext

end Template

end SyncForm
