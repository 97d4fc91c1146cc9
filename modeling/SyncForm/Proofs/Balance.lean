import SyncForm.Proofs.Import

/-!
# The balance of the column lists

While the mapping editor is in use, the source list has a record for every record of the target
list; where the target takes free-form records, the two lists are equally long (`Form.Balanced`).
Reconciling brings this about, whatever the lists were before (`Form.balanced_follow`), and it
happens whenever one of the lists is written. What is left to see is that a write of another key
that bears on the balance is never the last one of a step: the cascade of a rung writes the list of
its side after all such keys (`Rung.steps_split`). `Template.balanced_run` sums up.
-/

namespace SyncForm

namespace Mapping

variable (m : Model) (side : Side)

/-- A repaired side holds its entries as a list. -/
theorem value?_repair_self : (repair m side).value? side.key = some (.list (items m side)) := by
  unfold repair items
  split
  · next entries hget =>
    unfold Model.get at hget
    cases hvalue : m.value? side.key with
    | none => rw [hvalue] at hget; cases hget
    | some value => rw [hvalue] at hget; exact congrArg some hget
  · rw [Model.value?_clear, if_pos rfl]

/-- Both repaired sides hold their entries as lists. -/
theorem value?_repairBoth : (repairBoth m).value? side.key = some (.list (items m side)) := by
  unfold repairBoth
  cases side with
  | source =>
    have hother : (repair (repair m .source) .target).find? Side.source.key =
        (repair m .source).find? Side.source.key := find?_repair _ .target (by decide)
    exact (Model.value?_congr hother).trans (value?_repair_self m .source)
  | target =>
    have hother : (repair m .source).get Side.target.key = m.get Side.target.key :=
      Model.get_congr (Model.value?_congr (find?_repair m .source (by decide)))
    have hitems : items (repair m .source) .target = items m .target := by
      unfold items
      rw [hother]
    rw [value?_repair_self, hitems]

/-- The entries after reconciling: each list is followed by as many empty records as it lacks. -/
theorem items_reconcile (sink : Bool) :
    let lacking := (items m .target).length - (items m .source).length
    items (reconcile m sink).model .source = items m .source ++ blanks lacking ∧
      items (reconcile m sink).model .target = items m .target ++ if sink then
        blanks ((items m .source).length + lacking - (items m .target).length) else [] := by
  intro lacking
  have hrepaired (side : Side) : items (repairBoth m) side = items m side :=
    items_eq (value?_repairBoth m side)
  have hlength (n : Nat) : (blanks n).length = n := List.length_replicate
  have hsource : items m .source ++ blanks 0 = items m .source := List.append_nil _
  have htarget : items m .target ++ blanks 0 = items m .target := List.append_nil _
  -- What is stored under a repaired side is what that side holds then.
  have hstored (entries entries' : List Value) :
      items (store (store (repairBoth m) .source entries) .target entries') .source = entries ∧
        items (store (store (repairBoth m) .source entries) .target entries') .target = entries' := by
    constructor
    · refine items_eq ?_
      rw [store, store, Model.value?_replace, if_neg (by decide), Model.value?_replace, if_pos rfl,
        value?_repairBoth]
      rfl
    · refine items_eq ?_
      rw [store, store, Model.value?_replace, if_pos rfl, Model.value?_replace,
        if_neg (by decide), value?_repairBoth]
      rfl
  unfold reconcile
  simp only [hrepaired]
  cases sink with
  | false =>
    simp only [Bool.false_eq_true, if_false, List.length_append, hlength, List.append_nil]
    split
    · next hadded =>
      have hlacking : lacking = 0 := by omega
      rw [hrepaired, hrepaired, hlacking, hsource]
      exact ⟨rfl, rfl⟩
    · exact hstored _ _
  | true =>
    simp only [if_true, List.length_append, hlength]
    split
    · next hadded =>
      have hlacking : lacking = 0 := by omega
      have hlonger : (items m .source).length - (items m .target).length = 0 := by omega
      rw [hrepaired, hrepaired, hlacking, Nat.add_zero, hlonger, hsource, htarget]
      exact ⟨rfl, rfl⟩
    · exact hstored _ _

/-- After reconciling, the source list is not shorter than the target list, and where the target
takes free-form records both are equally long. -/
theorem length_reconcile (sink : Bool) :
    (items (reconcile m sink).model .target).length ≤
        (items (reconcile m sink).model .source).length ∧
      (sink = true → (items (reconcile m sink).model .source).length =
        (items (reconcile m sink).model .target).length) := by
  obtain ⟨hsource, htarget⟩ := items_reconcile m sink
  have hlength (n : Nat) : (blanks n).length = n := List.length_replicate
  rw [hsource, htarget]
  simp only [List.length_append, hlength]
  cases sink with
  | false =>
    refine ⟨?_, fun hsink => absurd hsink (by decide)⟩
    simp only [Bool.false_eq_true, if_false, List.length_nil]
    omega
  | true =>
    simp only [if_true, hlength]
    omega

end Mapping

namespace Form

/-- While the mapping editor is in use, no record of the target list is without one of the source
list beside it; where the target takes free-form records, none of the source list is without one of
the target list either. -/
def Balanced (m : Model) : Prop :=
  isEditable m = true →
    (Mapping.items m .target).length ≤ (Mapping.items m .source).length ∧
      (Mapping.isSingleSink m = true →
        (Mapping.items m .source).length = (Mapping.items m .target).length)

/-- The keys that bear on the balance: those that put the editor to use, and the two lists. -/
def bearing : List String :=
  [Keys.sourceTable, Keys.targetType, Keys.targetInstance, Keys.targetTable, Keys.sourceColumns,
    Keys.targetColumns]

variable {m m' : Model}

/-- The lists are balanced where the editor is not in use. -/
theorem balanced_of_not_editable (h : isEditable m = false) : Balanced m := by
  intro heditable
  rw [h] at heditable
  cases heditable

/-- The balance is that of any model with the same values under the keys that bear on it. -/
theorem Balanced.congr (h : Balanced m) (hm : ∀ key ∈ bearing, m'.value? key = m.value? key) :
    Balanced m' := by
  have hget (key : String) (hkey : key ∈ bearing) : m'.get key = m.get key :=
    Model.get_congr (hm key hkey)
  have hsink : Mapping.isSingleSink m' = Mapping.isSingleSink m :=
    Mapping.isSingleSink_congr (hm _ (by decide))
  have heditable : isEditable m' = isEditable m := by
    unfold isEditable
    rw [hsink, hget Keys.sourceTable (by decide)]
    cases Mapping.isSingleSink m with
    | false => simp only [Bool.false_eq_true, if_false, hget Keys.targetTable (by decide)]
    | true => simp only [if_true, hget Keys.targetInstance (by decide)]
  have hitems (side : Side) : Mapping.items m' side = Mapping.items m side := by
    unfold Mapping.items
    rw [hget side.key (by cases side <;> decide)]
  unfold Balanced
  rw [heditable, hsink, hitems, hitems]
  exact h

/-- Once a form has reacted to a write of one of the lists, the lists are balanced. -/
theorem balanced_follow (side : Side) (m : Model) : Balanced (follow side.key m).1 := by
  have hlist : (side.key == Keys.sourceColumns || side.key == Keys.targetColumns) = true := by
    cases side <;> decide
  rw [follow_model, hlist, Bool.true_and]
  split
  · intro _
    have hkept : (Mapping.reconcile m (Mapping.isSingleSink m)).model.find? Keys.targetType =
        m.find? Keys.targetType :=
      Mapping.find?_reconcile_of_ne m _ (by rintro (_ | _) <;> decide)
    have hsink : Mapping.isSingleSink (Mapping.reconcile m (Mapping.isSingleSink m)).model =
        Mapping.isSingleSink m := Mapping.isSingleSink_congr (Model.value?_congr hkept)
    rw [hsink]
    exact Mapping.length_reconcile m (Mapping.isSingleSink m)
  · next hidle => exact balanced_of_not_editable (Bool.eq_false_iff.2 hidle)

/-- A form of the task table, all of whose lookups in flight are lookups of that table. -/
structure OfTask (disabled : List String) (f : Form) : Prop where
  plan : f.plan = Template.plan disabled follow
  known : ∀ l ∈ f.resolver.inFlight, l.Known

/-- A sound form is one of the task table. -/
theorem Sound.ofTask {disabled : List String} {f : Form} (h : f.Sound disabled) :
    f.OfTask disabled :=
  ⟨h.plan, h.tracked.known⟩

end Form

/-- In the cascade of a rung the list of its side is reset, and after it no other key that bears on
the balance. -/
theorem Rung.steps_split (rung : Rung) (side : Side) :
    ∃ before after, rung.steps side = before ++ .reset side.key :: after ∧
      ∀ key ∈ Form.bearing, after.any (·.resets key) = false := by
  let below : List CascadeStep :=
    [.empty side.tableKey, .reset side.tableKey, .supersede side.tableKey]
  cases rung with
  | table => exact ⟨[], _, rfl, by cases side <;> decide⟩
  | place => exact ⟨below, _, rfl, by cases side <;> decide⟩
  | type =>
    refine ⟨[.empty side.instanceKey, .reset side.instanceKey, .supersede side.instanceKey] ++ below,
      _, rfl, ?_⟩
    cases side <;> decide

namespace Template

open Form

variable (disabled : List String) (r : Resolver)

/-- Announcing one of the lists balances them. -/
theorem balanced_propagate_list (side : Side) :
    Balanced ((plan disabled follow).propagate r side.key).model :=
  balanced_follow side r.model

/-- Announcing a key keeps the lists balanced. -/
theorem balanced_propagate (h : Balanced r.model) (key : String) :
    Balanced ((plan disabled follow).propagate r key).model := by
  by_cases hkey : ∃ side : Side, key = side.key
  · obtain ⟨side, rfl⟩ := hkey
    exact balanced_propagate_list disabled r side
  · have hsame : ((plan disabled follow).propagate r key).model = r.model :=
      follow_of_ne (fun side hside => hkey ⟨side, hside⟩) r.model
    rw [hsame]
    exact h

/-- Writing a key that triggers nothing keeps the lists balanced. -/
theorem balanced_write (h : Balanced r.model) {key : String}
    (hplain : (plan disabled follow).trigger? key = none) (value : Value) :
    Balanced ((plan disabled follow).write r key value).model := by
  by_cases hkey : ∃ side : Side, key = side.key
  · obtain ⟨side, rfl⟩ := hkey
    exact balanced_propagate_list disabled _ side
  · refine balanced_propagate disabled _ (h.congr fun other hother => ?_) key
    have hne : key ≠ other := by
      rintro rfl
      -- A key that bears on the balance is a list or triggers a lookup.
      have hall : bearing.all (fun key => ((plan [] Reaction.none).trigger? key).isSome ||
          key == Side.source.key || key == Side.target.key) = true := by decide +kernel
      have hsame : ((plan disabled follow).trigger? key).isSome =
          ((plan [] Reaction.none).trigger? key).isSome := by
        simp only [bearing, List.mem_cons, List.not_mem_nil, or_false] at hother
        rcases hother with rfl | rfl | rfl | rfl | rfl | rfl <;> rfl
      have hthis := List.all_eq_true.1 hall key hother
      rw [← hsame, hplain] at hthis
      simp only [Option.isSome_none, Bool.false_or, Bool.or_eq_true, beq_iff_eq] at hthis
      rcases hthis with hsource | htarget
      · exact hkey ⟨.source, hsource⟩
      · exact hkey ⟨.target, htarget⟩
    rw [Model.value?_setUser, if_neg hne]

/-- A cascade that resets no key that bears on the balance keeps the lists balanced. -/
theorem balanced_runSteps (h : Balanced r.model) (steps : List CascadeStep)
    (hsteps : ∀ key ∈ bearing, steps.any (·.resets key) = false) :
    Balanced (steps.foldl (plan disabled follow).runStep r).model := by
  induction steps generalizing r with
  | nil => exact h
  | cons step rest ih =>
    have hstep (key : String) (hkey : key ∈ bearing) : step.resets key = false ∧
        rest.any (·.resets key) = false := by
      have hany := hsteps key hkey
      rw [List.any_cons, Bool.or_eq_false_iff] at hany
      exact hany
    refine ih _ ?_ fun key hkey => (hstep key hkey).2
    cases step with
    | empty field => exact h
    | supersede name => exact h
    | reset key =>
      refine balanced_propagate disabled _ (h.congr fun other hother => ?_) key
      have hne : key ≠ other := by simpa [CascadeStep.resets] using (hstep other hother).1
      rw [Model.value?_clear, if_neg hne]

/-- A change of a rung balances the lists. -/
theorem balanced_rerun (side : Side) (rung : Rung) (value : Value) :
    Balanced ((plan disabled follow).rerun r (rung.key side) value (rung.trigger side)).1.model := by
  obtain ⟨before, after, hsteps, hafter⟩ := rung.steps_split side
  have hreset : Balanced ((plan disabled follow).runStep (before.foldl (plan disabled follow).runStep
      ((plan disabled follow).write r (rung.key side) value)) (.reset side.key)).model :=
    balanced_propagate_list disabled _ side
  have hmodel : ((plan disabled follow).rerun r (rung.key side) value (rung.trigger side)).1.model =
      ((rung.steps side).foldl (plan disabled follow).runStep
        ((plan disabled follow).write r (rung.key side) value)).model := by
    rw [← cascade_rung disabled follow side rung]
    rfl
  rw [hmodel, hsteps, List.foldl_append, List.foldl_cons]
  exact balanced_runSteps disabled _ hreset after hafter

/-- Bringing the lists of a table balances them. -/
theorem balanced_bring (side : Side) (t : TableColumns) :
    Balanced ((plan disabled follow).bring r side t).model :=
  balanced_propagate disabled _ (balanced_propagate_list disabled _ side) side.partitionsKey

/-- Completing a lookup of the task table keeps the lists balanced, however it ends. -/
theorem balanced_complete (h : Balanced r.model) {l : Lookup} (hl : l.Known) (ending : Ending) :
    Balanced ((plan disabled follow).complete r l (ending.answer l)).1.model := by
  obtain ⟨journal, hdone⟩ := (plan disabled follow).complete_resolver r l (ending.answer l)
  rcases hdone with hdone | ⟨cause, -, hdone⟩ | ⟨result, hanswer, hdone⟩
  · rw [hdone]
    exact h
  · rw [hdone]
    exact h.congr fun key _ => Plan.value?_fail (r.without l) l cause key
  · rw [hdone]
    obtain ⟨catalog, -, hrun⟩ := Ending.answer_eq_some hanswer
    rcases Lookup.shape hl hrun with ⟨side, rung, choices, -, rfl⟩ | ⟨side, t, -, rfl⟩
    · have hmodel : ((plan disabled follow).apply (r.without l)
          { choices := [(rung.key side, choices)] }).1.model = r.model := by
        by_cases hfield : Assoc.holds (r.without l).facets (rung.key side) = true
        · rw [Plan.apply_choices _ hfield]
          rfl
        · simp only [Plan.apply, Resolver.offerAll, if_neg hfield]
          rfl
      rw [hmodel]
      exact h
    · exact balanced_bring disabled (r.without l) side t

/-- A step keeps the lists of a form balanced. -/
theorem balanced_take {disabled : List String} {f : Form} (hf : f.OfTask disabled)
    (h : Balanced f.resolver.model) (step : Step) : Balanced (f.take step).resolver.model := by
  have hnoted : Balanced (f.resolver.noted step).model := by
    cases step with
    | change key value running => exact h
    | prime running => exact h
    | complete number ending => exact h
  have htaken := f.take_cases step
  rw [hf.plan] at htaken
  generalize (f.take step).resolver = r' at htaken ⊢
  cases htaken with
  | refused | absent => exact hnoted
  | written key value _ hplain _ => exact balanced_write disabled _ hnoted hplain value
  | rerun key value trigger htrigger _ =>
    obtain ⟨side, rung, rfl, rfl⟩ := trigger?_eq_some disabled follow htrigger
    exact balanced_rerun disabled _ side rung value
  | primed running =>
    rw [((plan disabled follow).prime_model _ running).1]
    exact hnoted
  | ended number ending l hl =>
    exact balanced_complete disabled _ h (hf.known l (Resolver.lookup?_eq_some hl).1) ending

/-- The mapping editor stays in step. The lists of a form are balanced where the editor is not in
use, and every change, every first load and every end of a lookup keeps them balanced. A form of job
parameters that starts out without the editor in use therefore has balanced lists throughout. -/
theorem balanced_run (disabled : List String) :
    (∀ f : Form, f.OfTask disabled →
      (f.editable = false → Balanced f.resolver.model) ∧
        (Balanced f.resolver.model → ∀ step, Balanced (f.take step).resolver.model)) ∧
    ∀ values f, Form.ofValues values (taskForm disabled) = .ok f →
      (∀ acts, (f.runActs acts).OfTask disabled) ∧
        (f.editable = false → ∀ steps, Balanced (f.run steps).resolver.model) := by
  refine ⟨fun f hf => ⟨balanced_of_not_editable, balanced_take hf⟩, fun values f hvalues => ?_⟩
  have hsound : f.Sound disabled := Form.sound_ofValues hvalues
  refine ⟨fun acts => (hsound.runActs acts).ofTask, fun hidle steps => ?_⟩
  have hstart : Balanced f.resolver.model := balanced_of_not_editable hidle
  clear hvalues hidle
  induction steps generalizing f with
  | nil => exact hstart
  | cons step rest ih => exact ih _ (hsound.take step) (balanced_take hsound.ofTask hstart step)

/-- The parameters of a job with a source table, whose target takes free-form records. -/
def freeFormJob : Assoc Value :=
  [(Keys.sourceTable, .text "orders"), (Keys.targetType, .text Datasource.elasticsearch)]

/-- A source column is written and the target chosen. -/
def chooseSink : List Step :=
  [.change Keys.sourceColumns (.list [.column Column.empty]) true,
    .change Keys.targetInstance (.text "4") true]

/-- Choosing the target of a job with a source column puts the editor to use and gives the target
list a record. -/
theorem balanced_once_editable :
    ∃ f, Form.ofValues (.object freeFormJob) (taskForm []) = .ok f ∧
      f.editable = false ∧ (f.run chooseSink).editable = true ∧
        (Mapping.items (f.run chooseSink).resolver.model .target).length = 1 ∧
        Balanced (f.run chooseSink).resolver.model := by
  let m := ((Model.ofMembers freeFormJob).ensure Keys.sourceColumns (.list [])).ensure
    Keys.targetColumns (.list [])
  have hf : Form.ofValues (.object freeFormJob) (taskForm []) = .ok (Form.onModel [] m) :=
    Form.ofValues_taskForm ..
  have hidle : (Form.onModel [] m).editable = false := by decide +kernel
  have hchange := ((Form.sound_ofValues hf).take
    (.change Keys.sourceColumns (.list [.column Column.empty]) true)).take_rung_steps .target .place
      (.text "4")
  simp only [Rung.key, Side.instanceKey] at hchange
  refine ⟨_, hf, hidle, ?_, ?_, ((balanced_run []).2 _ _ hf).2 hidle chooseSink⟩
  · simp only [chooseSink, Form.run, List.foldl]
    rw [hchange]
    decide +kernel
  · simp only [chooseSink, Form.run, List.foldl]
    rw [hchange]
    decide +kernel

end Template

end SyncForm
