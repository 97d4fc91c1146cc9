import SyncForm.Proofs.Reconciling
import SyncForm.Proofs.Start

/-!
# Runs of a form

On a form the steps of its resolver alternate with operations of the mapping editor, with
validations and with exports. Every such act keeps the lookups in flight accounted for
(`Form.Sound`): an operation of the editor touches the column lists alone
(`EditorCall.local_run`), a validation no value, and an export no key of the chains.
-/

namespace SyncForm

/-- The operations of the mapping editor. -/
inductive EditorCall where
  | add (side : Side)
  | remove (side : Side) (index : Int)
  | move (side : Side) (index : Int) (direction : Value)
  | connect (index : Int) (on : Bool)
  | connectAll (on : Bool)
  | reconcile (singleSink : Bool)
  | update (side : Side) (index : Int) (name payload : Option Value)
  | summary
  | validate (singleSink : Bool)

/-- The form after an operation of the editor. -/
def EditorCall.run (f : Form) : EditorCall → Form
  | add side => (f.edit (Mapping.add · side)).1
  | remove side index => (f.edit (Mapping.remove · side index)).1
  | move side index direction => (f.edit (Mapping.move · side index direction)).1
  | connect index on => (f.edit (Mapping.connect · index on)).1
  | connectAll on => (f.edit (Mapping.connectAll · on)).1
  | reconcile singleSink => (f.edit (Mapping.reconcile · singleSink)).1
  | update side index name payload => (f.edit (Mapping.update · side index name payload)).1
  | summary => (f.edit Mapping.summary).1
  | validate singleSink => (f.edit (Mapping.validate · singleSink)).1

/-- What happens to a form: a step of its resolver, an operation of the editor, a validation or an
export. -/
inductive Act where
  | step (step : Step)
  | edit (call : EditorCall)
  | validate
  | toParams (strict : Bool)

namespace Form

/-- The form after a step of its resolver. -/
def take (f : Form) : Step → Form
  | .change key value running => (f.change key value running).1
  | .prime running => (f.prime running).1
  | .complete number ending =>
    match f.resolver.lookup? number with
    | some l => (f.complete l (ending.answer l)).1
    | none => f

/-- The form after some steps of its resolver. -/
def run (f : Form) (steps : List Step) : Form :=
  steps.foldl take f

/-- Steps taken one after the other are taken in two stretches. -/
theorem run_append (f : Form) (steps rest : List Step) :
    f.run (steps ++ rest) = (f.run steps).run rest :=
  List.foldl_append

/-- The form after an act. -/
def act (f : Form) : Act → Form
  | .step step => f.take step
  | .edit call => call.run f
  | .validate => f.validate.1
  | .toParams strict => (f.toParams strict).1

/-- The form after some acts. -/
def runActs (f : Form) (acts : List Act) : Form :=
  acts.foldl act f

end Form

/-- The resolver of a form at a step: a change is noted first. -/
def Resolver.noted (r : Resolver) : Step → Resolver
  | .change key value _ => r.log (.changed key value)
  | _ => r

/-- A change is noted as it comes. -/
@[simp] theorem Resolver.noted_change (r : Resolver) (key : String) (value : Value)
    (running : Bool) : r.noted (.change key value running) = r.log (.changed key value) :=
  rfl

/-- A first load is not noted. -/
@[simp] theorem Resolver.noted_prime (r : Resolver) (running : Bool) :
    r.noted (.prime running) = r :=
  rfl

/-- The end of a lookup is not noted. -/
@[simp] theorem Resolver.noted_complete (r : Resolver) (number : Nat) (ending : Ending) :
    r.noted (.complete number ending) = r :=
  rfl

/-- A step of a form is a step of its resolver. -/
theorem Form.take_eq (f : Form) (step : Step) :
    f.take step = { f with resolver := f.plan.take (f.resolver.noted step) step } := by
  cases step with
  | change key value running => rfl
  | prime running => rfl
  | complete number ending =>
    simp only [take, Plan.take, Resolver.noted]
    cases f.resolver.lookup? number <;> rfl

/-- A step takes the resolver of a form, which has noted it, to one that its plan can take it to. -/
theorem Form.take_cases (f : Form) (step : Step) :
    f.plan.Takes (f.resolver.noted step) step (f.take step).resolver := by
  rw [take_eq]
  exact f.plan.take_cases (f.resolver.noted step) step

/-! ## The mapping editor -/

/-- A model differs from another one in the column lists at most, where it holds a list wherever it
differs, and drops no key. -/
structure Local (m m' : Model) : Prop where
  others : ∀ key, (∀ side : Side, key ≠ side.key) → m'.find? key = m.find? key
  lists : ∀ side : Side, m'.value? side.key = m.value? side.key ∨
    ∃ entries, m'.value? side.key = some (.list entries)
  held : m.Sub m'

namespace Local

variable {m m' : Model}

/-- A model differs in nothing from itself. -/
theorem refl (m : Model) : Local m m :=
  ⟨fun _ _ => rfl, fun _ => .inl rfl, .refl m⟩

/-- Changing the entry of a list differs in that list. -/
theorem adjust (h : Local m m') (side : Side) (f : Entry → Entry)
    (hf : ∀ e, (f e).value = e.value ∨ ∃ entries, (f e).value = .list entries) :
    Local m (m'.adjust side.key f) where
  others key hkey := by
    rw [Model.find?_adjust, if_neg (hkey side).symm]
    exact h.others key hkey
  lists s := by
    rcases m'.value?_adjust_cases side.key f s.key with hsame | ⟨e, he, hvalue⟩
    · rw [hsame]
      exact h.lists s
    · rcases hf e with hkept | ⟨entries, hlist⟩
      · rw [hvalue, hkept, ← Model.value?_of_find? he]
        exact h.lists s
      · exact .inr ⟨entries, hvalue.trans (congrArg some hlist)⟩
  held := h.held.adjust side.key f

/-- A repair differs in the list that it repairs. -/
theorem repair (h : Local m m') (side : Side) : Local m (Mapping.repair m' side) where
  others key hkey := (Mapping.find?_repair m' side (hkey side)).trans (h.others key hkey)
  lists s := by
    unfold Mapping.repair
    split
    · exact h.lists s
    · rw [Model.value?_clear]
      split
      · exact .inr ⟨_, rfl⟩
      · exact h.lists s
  held := Mapping.sub_repair m h.held side

/-- Storing a list differs in that list. -/
theorem store (h : Local m m') (side : Side) (entries : List Value) :
    Local m (Mapping.store m' side entries) :=
  h.adjust side _ fun _ => .inr ⟨entries, rfl⟩

/-- Marking a list as the user's differs in that list. -/
theorem touch (h : Local m m') (side : Side) : Local m (m'.touch side.key) :=
  h.adjust side _ fun _ => .inl rfl

end Local

namespace Mapping

/-- The operations of the editor keep a property of models: repairs, stored lists and marks of the
user keep it. -/
structure Kept (P : Model → Prop) : Prop where
  repair : ∀ {m : Model} (side : Side), P m → P (repair m side)
  store : ∀ {m : Model} (side : Side) (entries : List Value), P m → P (store m side entries)
  touch : ∀ {m : Model} (side : Side), P m → P (m.touch side.key)

/-- That a model differs from another one in the lists at most is kept. -/
theorem kept_local (m : Model) : Kept (Local m) where
  repair side h := h.repair side
  store side entries h := h.store side entries
  touch side h := h.touch side

/-- Setting a flag stores the record at its position with that flag, if there is one. -/
theorem setFlag_cases {m m' : Model} {side : Side} {i : Nat} {on : Bool}
    (h : setFlag m side i on = .ok m') :
    m' = m ∨ ∃ c : Column, (Mapping.items m side)[i]? = some (.column c) ∧
      m' = store m side ((Mapping.items m side).set i (.column { c with connected := on })) := by
  unfold setFlag at h
  split at h
  · cases h
    exact .inl rfl
  · next entry hentry =>
    cases entry with
    | column c =>
      cases h
      exact .inr ⟨c, hentry, rfl⟩
    | _ => cases h

namespace Kept

variable {P : Model → Prop} (hP : Kept P) {m : Model}

include hP

/-- Repairing both lists keeps the property. -/
theorem repairBoth (h : P m) : P (Mapping.repairBoth m) :=
  hP.repair .target (hP.repair .source h)

/-- Setting flags keeps the property. -/
theorem setFlags (h : P m) (on : Bool) (flags : List (Side × Nat)) :
    P (Mapping.setFlags m on flags).1 := by
  induction flags generalizing m with
  | nil => exact h
  | cons flag rest ih =>
    unfold Mapping.setFlags
    cases hflag : Mapping.setFlag m flag.1 flag.2 on with
    | error fault => exact h
    | ok set =>
      refine ih ?_
      rcases setFlag_cases hflag with rfl | ⟨c, -, rfl⟩
      · exact h
      · exact hP.store flag.1 _ h

/-- Removing a record keeps the property. -/
theorem remove (h : P m) (side : Side) (index : Int) : P (Mapping.remove m side index).model := by
  have hrepair := hP.repair side h
  unfold Mapping.remove
  dsimp only
  split
  · exact hrepair
  · next i _ =>
    have hflags := hP.setFlags (hP.repairBoth hrepair) false [(.source, i), (.target, i)]
    split
    · exact hflags
    · exact hP.touch side (hP.store side _ hflags)

/-- Moving a record keeps the property. -/
theorem move (h : P m) (side : Side) (index : Int) (direction : Value) :
    P (Mapping.move m side index direction).model := by
  have hrepair := hP.repair side h
  unfold Mapping.move
  dsimp only
  split
  · exact hrepair
  · split
    · next i j _ _ =>
      have hflags := hP.setFlags hrepair false [(side, i), (side, j)]
      split
      · exact hflags
      · exact hP.touch side (hP.store side _ hflags)
    · exact hrepair

/-- Connecting two records keeps the property. -/
theorem connect (h : P m) (index : Int) (on : Bool) : P (Mapping.connect m index on).model := by
  have hrepair := hP.repairBoth h
  unfold Mapping.connect
  dsimp only
  split
  · next i j _ _ => exact hP.setFlags hrepair on [(.source, i), (.target, j)]
  · exact hrepair

/-- Reconciling the lists keeps the property. -/
theorem reconcile (h : P m) (singleSink : Bool) : P (Mapping.reconcile m singleSink).model := by
  have hrepair := hP.repairBoth h
  rcases reconcile_cases m singleSink with hmodel | ⟨grown, grown', -, hmodel⟩
  · rw [hmodel]
    exact hrepair
  · rw [hmodel]
    exact hP.store .target _ (hP.store .source _ hrepair)

/-- Editing a record keeps the property. -/
theorem update (h : P m) (side : Side) (index : Int) (name payload : Option Value) :
    P (Mapping.update m side index name payload).model := by
  have hrepair := hP.repair side h
  unfold Mapping.update
  dsimp only
  split
  · exact hrepair
  · split
    · exact hrepair
    · split
      · exact hP.touch side (hP.store side _ hrepair)
      · split
        · exact hP.store side _ hrepair
        · split
          · exact hP.store side _ (hP.store side _ hrepair)
          · exact hP.touch side (hP.store side _ (hP.store side _ hrepair))

end Kept

end Mapping

/-- An operation whose result is changed afterwards. -/
def Edit.map {α β : Type} (g : α → β) (edit : Edit α) : Edit β :=
  { model := edit.model, result := edit.result.map g, events := edit.events }

/-- An operation of the editor on a model, its result as a value. -/
def EditorCall.perform (m : Model) : EditorCall → Edit Value
  | add side => Mapping.add m side
  | remove side index => (Mapping.remove m side index).map (·.getD .null)
  | move side index direction => (Mapping.move m side index direction).map .bool
  | connect index on => (Mapping.connect m index on).map .bool
  | connectAll on => (Mapping.connectAll m on).map fun (n : Nat) => .int n
  | reconcile singleSink => (Mapping.reconcile m singleSink).map fun (n : Nat) => .int n
  | update side index name payload => (Mapping.update m side index name payload).map .bool
  | summary => (Mapping.summary m).map fun flags => .list (flags.map .bool)
  | validate singleSink =>
    (Mapping.validate m singleSink).map fun message => (message.map Value.text).getD .null

/-- An operation of the editor on a form is one on its model. -/
theorem EditorCall.run_eq (call : EditorCall) (f : Form) :
    call.run f = (f.edit (call.perform ·)).1 := by
  cases call <;> rfl

/-- An operation of the editor keeps what the editor keeps. -/
theorem EditorCall.kept_perform {P : Model → Prop} (hP : Mapping.Kept P) (call : EditorCall)
    {m : Model} (h : P m) : P (call.perform m).model := by
  cases call with
  | add side => exact hP.touch side (hP.store side _ (hP.repair side h))
  | remove side index => exact hP.remove h side index
  | move side index direction => exact hP.move h side index direction
  | connect index on => exact hP.connect h index on
  | connectAll on => exact hP.setFlags (hP.repairBoth h) on _
  | reconcile singleSink => exact hP.reconcile h singleSink
  | update side index name payload => exact hP.update h side index name payload
  | summary => exact hP.repairBoth h
  | validate singleSink => exact hP.repairBoth h

/-- An operation of the editor differs in the column lists. -/
theorem EditorCall.local_perform (call : EditorCall) (m : Model) :
    Local m (call.perform m).model :=
  call.kept_perform (Mapping.kept_local m) (Local.refl m)

/-- An operation of the editor on a form differs in the column lists of its model. -/
theorem EditorCall.local_run (call : EditorCall) (f : Form) :
    ∃ m journal, call.run f = { f with resolver := { f.resolver with model := m, journal } } ∧
      Local f.resolver.model m :=
  ⟨_, _, call.run_eq f, call.local_perform f.resolver.model⟩

/-! ## Validations and exports -/

/-- A model with a message on the entries of some keys. -/
def Model.marked (m : Model) (keys : List String) (message : Option String) : Model :=
  keys.foldl (fun m key => m.adjust key fun e => { e with validationError := message }) m

/-- Marking entries with errors keeps all values. -/
theorem Model.value?_marked (m : Model) (keys : List String) (message : Option String)
    (key : String) : (m.marked keys message).value? key = m.value? key := by
  induction keys generalizing m with
  | nil => rfl
  | cons k rest ih =>
    exact (ih _).trans
      (m.value?_adjust k (fun e => { e with validationError := message }) (fun _ => rfl) key)

/-- Checking fields changes the model alone, and no value of it. -/
theorem Form.checkFields_model (plan : Plan) (fields : List Descriptor) (r : Resolver) :
    ∃ m, (checkFields plan r fields).1 = { r with model := m } ∧
      ∀ key, m.value? key = r.model.value? key := by
  induction fields generalizing r with
  | nil => exact ⟨r.model, rfl, fun _ => rfl⟩
  | cons d rest ih =>
    unfold checkFields
    split
    · exact ih r
    · split
      · exact ⟨r.model, rfl, fun _ => rfl⟩
      · split
        · exact ⟨r.model, rfl, fun _ => rfl⟩
        · next message _ =>
          obtain ⟨m, hm, hvalues⟩ := ih { r with model := r.model.marked d.modelKeys message }
          refine ⟨m, ?_, fun key => (hvalues key).trans (r.model.value?_marked ..)⟩
          dsimp only
          split <;> exact hm

/-- A validation changes the model alone, and no value of it. -/
theorem Form.validate_model (f : Form) :
    ∃ m, f.validate.1 = { f with resolver := { f.resolver with model := m } } ∧
      ∀ key, m.value? key = f.resolver.model.value? key := by
  unfold validate
  split
  · exact ⟨f.resolver.model, rfl, fun _ => rfl⟩
  · next shown _ =>
    obtain ⟨m, hm, hvalues⟩ := checkFields_model f.plan shown f.resolver
    refine ⟨m, ?_, hvalues⟩
    dsimp only
    rw [hm]

/-- Exporting one key replaces the object that its path goes through, if it does anything to the
model. -/
theorem Export.step_model (x : Export) (path : String) :
    (x.step path).model = x.model ∨ ∃ above name value,
      splitPath path = some (above, name) ∧ (x.step path).model = x.model.replace above value := by
  unfold step
  split
  · exact .inl rfl
  · split
    · next above name hsplit =>
      unfold nest
      split
      · dsimp only
        split
        · exact .inr ⟨above, name, _, hsplit, rfl⟩
        · exact .inl rfl
      · exact .inl rfl
    · exact .inl rfl

/-- An export drops no key and leaves the value of a key that no exported path goes through. -/
theorem Model.exportKeys_model (m : Model) (keys : List String) :
    m.Sub (m.exportKeys keys).2 ∧ ∀ key,
      (∀ path ∈ keys, ∀ above name, splitPath path = some (above, name) → above ≠ key) →
        (m.exportKeys keys).2.value? key = m.value? key := by
  have hfold : ∀ (paths : List String) (x : Export),
      x.model.Sub (paths.foldl Export.step x).model ∧ ∀ key,
        (∀ path ∈ paths, ∀ above name, splitPath path = some (above, name) → above ≠ key) →
          (paths.foldl Export.step x).model.value? key = x.model.value? key := by
    intro paths
    induction paths with
    | nil => exact fun x => ⟨.refl _, fun _ _ => rfl⟩
    | cons path rest ih =>
      intro x
      obtain ⟨hsub, hvalues⟩ := ih (x.step path)
      rcases x.step_model path with hstep | ⟨above, name, value, hsplit, hstep⟩
      · rw [hstep] at hsub hvalues
        exact ⟨hsub, fun key hkey => hvalues key fun p hp => hkey p (.tail _ hp)⟩
      · rw [hstep] at hsub hvalues
        refine ⟨((Sub.refl _).adjust above _).trans hsub, fun key hkey => ?_⟩
        have hne := hkey path (.head _) above name hsplit
        refine (hvalues key fun p hp => hkey p (.tail _ hp)).trans ?_
        rw [value?_replace, if_neg hne]
  exact hfold keys { model := m, members := [], own := [] }

/-- The keys that an export of the task form writes, in order. -/
def Template.paramKeys : List String :=
  ((plan [] Reaction.none).descriptors.filter (·.kind != .divider)).flatMap (·.modelKeys)

/-- The exported keys do not depend on the types that are not offered. -/
theorem Template.exportedKeys_eq (disabled : List String) {react : Reaction} (f : Form)
    (hplan : f.plan = plan disabled react) :
    (f.plan.descriptors.filter (·.kind != .divider)).flatMap (·.modelKeys) = paramKeys := by
  rw [hplan]
  rfl

/-- The path that exports of the task form go through. -/
def nestedKey : String := "es_params"

/-- Exports of the task form go through one path. -/
theorem Template.splitPath_paramKeys {key : String} (hkey : key ∈ paramKeys) {above name : String}
    (hsplit : splitPath key = some (above, name)) : above = nestedKey := by
  have hall : paramKeys.all (fun path => (splitPath path).all (·.1 == nestedKey)) = true := by
    decide +kernel
  simpa [hsplit] using List.all_eq_true.1 hall key hkey

/-- An export of the task form drops no key and leaves all values but the nested one. -/
theorem Form.exportParams_model (disabled : List String) {react : Reaction} (f : Form)
    (hplan : f.plan = Template.plan disabled react) :
    ∃ m journal, f.exportParams.1 = { f with resolver := { f.resolver with model := m, journal } } ∧
      f.resolver.model.Sub m ∧
      ∀ key, key ≠ nestedKey → m.value? key = f.resolver.model.value? key := by
  obtain ⟨hsub, hkept⟩ := f.resolver.model.exportKeys_model Template.paramKeys
  have hvalues : ∀ key, key ≠ nestedKey →
      (f.resolver.model.exportKeys Template.paramKeys).2.value? key =
        f.resolver.model.value? key := by
    intro key hkey
    refine hkept key fun path hpath above name hsplit hne => hkey ?_
    exact hne.symm.trans (Template.splitPath_paramKeys hpath hsplit)
  rw [← Template.exportedKeys_eq disabled f hplan] at hsub hvalues
  unfold exportParams
  dsimp only
  split
  · exact ⟨_, _, rfl, hsub, hvalues⟩
  · exact ⟨_, _, rfl, hsub, hvalues⟩

/-- An export after a validation, if one is asked for, drops no key and leaves all values but the
nested one. -/
theorem Form.toParams_model (disabled : List String) {react : Reaction} (f : Form)
    (hplan : f.plan = Template.plan disabled react) (strict : Bool) :
    ∃ m journal,
      (f.toParams strict).1 = { f with resolver := { f.resolver with model := m, journal } } ∧
      f.resolver.model.Sub m ∧ ∀ key, key ≠ nestedKey → m.value? key = f.resolver.model.value? key := by
  obtain ⟨m, hm, hvalues⟩ := f.validate_model
  have hsub : f.resolver.model.Sub m := .of_values hvalues
  unfold toParams
  cases strict with
  | false => exact exportParams_model disabled f hplan
  | true =>
    rw [if_pos rfl]
    split
    · next g _ hg =>
      obtain rfl : f.validate.1 = g := congrArg Prod.fst hg
      exact ⟨m, f.resolver.journal, hm, hsub, fun key _ => hvalues key⟩
    · next g hg =>
      obtain rfl : f.validate.1 = g := congrArg Prod.fst hg
      rw [hm]
      obtain ⟨m', journal, hm', hsub', hvalues'⟩ := exportParams_model disabled
        { f with resolver := { f.resolver with model := m } } hplan
      exact ⟨m', journal, hm', hsub.trans hsub',
        fun key hkey => (hvalues' key hkey).trans (hvalues key)⟩
    · next g _ _ hg =>
      obtain rfl : f.validate.1 = g := congrArg Prod.fst hg
      exact ⟨m, f.resolver.journal, hm, hsub, fun key _ => hvalues key⟩

/-! ## The invariant of a form -/

/-- Another model with the same values in the chains and no key fewer keeps the lookups in flight
accounted for. -/
theorem Resolver.Tracked.remodel {r : Resolver} (h : r.Tracked) {m : Model} {journal : List Event}
    (hheld : r.model.Sub m)
    (hm : ∀ side rung, m.value? (Rung.key rung side) = r.model.value? (rung.key side)) :
    ({ r with model := m, journal } : Resolver).Tracked := by
  have hadvances : r.Advances { r with model := m, journal } :=
    { ready := rfl
      held := hheld
      offers := fun _ _ => rfl
      later := fun _ => ⟨0, (Option.map_id' ..).symm⟩
      kept := fun side _ _ other _ => hm side other }
  exact h.advance hadvances (Nat.le_refl _) (fun _ hl => .inl hl) h.distinct

/-- A form of the task table that holds its lists, with all lookups in flight accounted for. -/
structure Form.Sound (disabled : List String) (f : Form) : Prop where
  plan : f.plan = Template.plan disabled Form.follow
  tracked : f.resolver.Tracked
  columns : ∀ side : Side, f.resolver.model.holds side.key = true
  partitions : ∀ side : Side, f.resolver.model.holds side.partitionsKey = true

namespace Form

variable {disabled : List String} {f : Form}

/-- Noting a change keeps the lookups in flight accounted for. -/
theorem Sound.noted (h : f.Sound disabled) (step : Step) : (f.resolver.noted step).Tracked := by
  cases step with
  | change key value running => exact h.tracked.remodel (.refl _) fun _ _ => rfl
  | prime running => exact h.tracked
  | complete number ending => exact h.tracked

/-- A form that goes on to another resolver without dropping a key stays sound. -/
theorem Sound.advance (h : f.Sound disabled) {r : Resolver} (hheld : f.resolver.model.Sub r.model)
    (htracked : r.Tracked) : Form.Sound disabled { f with resolver := r } where
  plan := h.plan
  tracked := htracked
  columns side := hheld.holds (h.columns side)
  partitions side := hheld.holds (h.partitions side)

/-- A step drops no key and keeps a form sound. -/
theorem Sound.sub_take (h : f.Sound disabled) (step : Step) :
    f.resolver.model.Sub (f.take step).resolver.model ∧ (f.take step).Sound disabled := by
  obtain ⟨hadvances, htracked⟩ :=
    Template.advances_take disabled follow_listsOnly (h.noted step) step
  have hmodel : (f.resolver.noted step).model = f.resolver.model := by
    cases step <;> rfl
  rw [← h.plan] at hadvances htracked
  have hheld := hmodel ▸ hadvances.held
  rw [take_eq]
  exact ⟨hheld, h.advance hheld htracked⟩

/-- A step keeps a form sound. -/
theorem Sound.take (h : f.Sound disabled) (step : Step) : (f.take step).Sound disabled :=
  (h.sub_take step).2

/-- Another model with the same values in the chains and no key fewer keeps a form sound. -/
theorem Sound.remodel (h : f.Sound disabled) {m : Model} {journal : List Event}
    (hheld : f.resolver.model.Sub m)
    (hm : ∀ side rung, m.value? (Rung.key rung side) = f.resolver.model.value? (rung.key side)) :
    Form.Sound disabled { f with resolver := { f.resolver with model := m, journal } } :=
  h.advance hheld (h.tracked.remodel hheld hm)

/-- An act drops no key and keeps a form sound. -/
theorem Sound.sub_act (h : f.Sound disabled) (act : Act) :
    f.resolver.model.Sub (f.act act).resolver.model ∧ (f.act act).Sound disabled := by
  cases act with
  | step step => exact h.sub_take step
  | edit call =>
    obtain ⟨m, journal, hm, hlocal⟩ := call.local_run f
    rw [Form.act, hm]
    exact ⟨hlocal.held, h.remodel hlocal.held fun side rung => Model.value?_congr
      (hlocal.others _ fun side' => (rung.unlisted side side').1)⟩
  | validate =>
    obtain ⟨m, hm, hvalues⟩ := f.validate_model
    rw [Form.act, hm]
    exact ⟨.of_values hvalues, h.remodel (.of_values hvalues) fun side rung => hvalues _⟩
  | toParams strict =>
    obtain ⟨m, journal, hm, hsub, hvalues⟩ := f.toParams_model disabled h.plan strict
    rw [Form.act, hm]
    exact ⟨hsub, h.remodel hsub fun side rung =>
      hvalues _ (by cases side <;> cases rung <;> decide)⟩

/-- Acts drop no key and keep a form sound. -/
theorem Sound.sub_runActs (h : f.Sound disabled) (acts : List Act) :
    f.resolver.model.Sub (f.runActs acts).resolver.model ∧ (f.runActs acts).Sound disabled := by
  induction acts generalizing f with
  | nil => exact ⟨.refl _, h⟩
  | cons act rest ih =>
    obtain ⟨hfirst, hact⟩ := h.sub_act act
    obtain ⟨hrest, hdone⟩ := ih hact
    exact ⟨hfirst.trans hrest, hdone⟩

/-- An act keeps a form sound. -/
theorem Sound.act (h : f.Sound disabled) (act : Act) : (f.act act).Sound disabled :=
  (h.sub_act act).2

/-- Acts keep a form sound. -/
theorem Sound.runActs (h : f.Sound disabled) (acts : List Act) :
    (f.runActs acts).Sound disabled :=
  (h.sub_runActs acts).2

/-! ## Changes of a sound form -/

/-- A change of a key that is not held is noted and refused. -/
theorem Sound.take_unheld (h : f.Sound disabled) {key : String} (value : Value) (running : Bool)
    (hheld : f.resolver.model.holds key = false) :
    (f.take (.change key value running)).resolver = f.resolver.log (.changed key value) := by
  have hchange := f.plan.change_of_unheld (r := f.resolver.log (.changed key value)) value running
    h.tracked.ready hheld
  rw [take_eq]
  exact congrArg Prod.fst hchange

/-- A change of a held key that triggers nothing is noted and written. -/
theorem Sound.take_plain (h : f.Sound disabled) {key : String} (value : Value) (running : Bool)
    (hplain : (Template.plan disabled follow).trigger? key = none)
    (hheld : f.resolver.model.holds key = true) :
    (f.take (.change key value running)).resolver =
      (Template.plan disabled follow).write (f.resolver.log (.changed key value)) key value := by
  have hchange := (Template.plan disabled follow).change_of_plain
    (r := f.resolver.log (.changed key value)) value running hplain h.tracked.ready hheld
  rw [take_eq, h.plan]
  exact congrArg Prod.fst hchange

/-- A change of a held key that triggers nothing and is no column list changes the value of that key
alone. -/
theorem Sound.value?_take_plain (h : f.Sound disabled) {key : String} (value : Value)
    (running : Bool) (hplain : (Template.plan disabled follow).trigger? key = none)
    (hheld : f.resolver.model.holds key = true) (hkey : ∀ side : Side, key ≠ side.key)
    (other : String) :
    (f.take (.change key value running)).resolver.model.value? other =
      if key = other then some value else f.resolver.model.value? other := by
  have hmodel : ((Template.plan disabled follow).write (f.resolver.log (.changed key value)) key
      value).model = f.resolver.model.setUser key value := follow_of_ne hkey _
  rw [h.take_plain value running hplain hheld, hmodel, Model.value?_setUser]

/-- A change of a rung is noted and accepted. -/
theorem Sound.take_rung (h : f.Sound disabled) (side : Side) (rung : Rung) (value : Value) :
    (f.take (.change (rung.key side) value true)).resolver =
      Template.rerunKey disabled (f.resolver.log (.changed (rung.key side) value)) side rung value
        follow := by
  rw [take_eq, h.plan]
  exact Template.take_rung disabled _ (h.noted _) side rung value

/-- A change of a rung on a sound form, its cascade written out. -/
theorem Sound.take_rung_steps (h : f.Sound disabled) (side : Side) (rung : Rung) (value : Value) :
    f.take (.change (rung.key side) value true) =
      { f with resolver := (((rung.steps side).foldl f.plan.runStep
          (f.plan.write (f.resolver.log (.changed (rung.key side) value)) (rung.key side)
            value)).reissue (rung.key side) (rung.trigger side).fetch (some (rung.key side))).1 } := by
  have hform : f.take (.change (rung.key side) value true) =
      { f with resolver := (f.take (.change (rung.key side) value true)).resolver } := by
    rw [take_eq]
  rw [hform, h.take_rung side rung value, Template.rerunKey, Plan.rerun, Template.cascade_rung,
    h.plan]

end Form

end SyncForm
