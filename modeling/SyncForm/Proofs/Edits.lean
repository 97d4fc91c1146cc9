import SyncForm.Catalog.Fixture
import SyncForm.Proofs.Import

/-!
# What becomes of an edited list

The user may edit a list that lookups write. As long as neither the list nor a key above it is
changed again and the mapping editor is not used, only a lookup of the table of that side can
replace it, and only one that was in flight when the list was edited: `Template.edit_holds` says
what the list is in every state after the edit, `Form.applied` being the list that was applied last.
`Template.edit_overwritten` is a run in which such a lookup replaces the edit.
-/

namespace SyncForm

/-- A side holds a list under one of its two keys; columns may have empty records appended. -/
def Holding (m : Model) (side : Side) (key : String) (items : List Value) : Prop :=
  if key = side.key then Padded m side items else m.value? key = some (.list items)

/-- The list that a lookup result has for a key. -/
def LookupResult.list? (result : LookupResult) (key : String) : Option (List Value) :=
  match Assoc.valueOf? result.values key with
  | some (.list items) => some items
  | _ => none

/-- An act changes neither a key nor one of the chain of a side, and is none of the editor. -/
def Act.LeavesAlone (side : Side) (key : String) : Act → Prop
  | .step (.change changed _ _) => changed ≠ key ∧ ∀ rung : Rung, changed ≠ rung.key side
  | .edit _ => False
  | _ => True

namespace Form

/-- The list that an act applies to a key, if it completes a lookup that brings one and counts. -/
def applies? (f : Form) (key : String) : Act → Option (List Value)
  | .step (.complete number ending) =>
    match f.resolver.lookup? number with
    | some l =>
      match f.resolver.isStale l, ending.answer l with
      | false, .ok (some result) => result.list? key
      | _, _ => none
    | none => none
  | _ => none

/-- The list that acts apply to a key last; the given one if they apply none. -/
def applied (f : Form) (key : String) (items : List Value) : List Act → List Value
  | [] => items
  | act :: rest => (f.act act).applied key ((f.applies? key act).getD items) rest

end Form

/-! ## Lists held through an act -/

namespace Holding

variable {m m' : Model} {side : Side} {key : String} {items : List Value}

/-- The columns that are held may be padded. -/
theorem columns : Holding m side side.key items ↔ Padded m side items := by
  rw [Holding, if_pos rfl]

/-- The partitions that are held are those edited. -/
theorem partitions : Holding m side side.partitionsKey items ↔
    m.value? side.partitionsKey = some (.list items) := by
  rw [Holding, if_neg (side.partitionsKey_ne_key side)]

/-- A list is held while neither it nor the type of the target changes. -/
theorem congr (hkey : key = side.key ∨ key = side.partitionsKey) (h : Holding m side key items)
    (hlist : m'.value? key = m.value? key)
    (htype : m'.value? Keys.targetType = m.value? Keys.targetType) :
    Holding m' side key items := by
  rcases hkey with rfl | rfl
  · exact columns.2 ((columns.1 h).congr hlist fun _ => htype)
  · exact partitions.2 (hlist.trans (partitions.1 h))

end Holding

namespace Template

variable (disabled : List String) {r : Resolver} {side : Side} {key : String} {items : List Value}

/-- Writing another key that triggers nothing leaves an edited list. -/
theorem holding_write (hkey : key = side.key ∨ key = side.partitionsKey)
    (h : Holding r.model side key items) {changed : String} (value : Value)
    (hchanged : changed ≠ key) (htype : changed ≠ Keys.targetType) :
    Holding ((plan disabled Form.follow).write r changed value).model side key items := by
  rcases hkey with rfl | rfl
  · exact Holding.columns.2
      (padded_write disabled r (Holding.columns.1 h) value hchanged fun _ => htype)
  · rw [Holding.partitions, Plan.value?_write _ (spares_partitions disabled side), if_neg hchanged]
    exact Holding.partitions.1 h

/-- The user's edit of a list is held. -/
theorem holding_write_self (hkey : key = side.key ∨ key = side.partitionsKey) :
    Holding ((plan disabled Form.follow).write r key (.list items)).model side key items := by
  rcases hkey with rfl | rfl
  · exact Holding.columns.2 (padded_write_self disabled r)
  · rw [Holding.partitions, Plan.value?_write _ (spares_partitions disabled side), if_pos rfl]

/-- A change of the chain of the other side leaves an edited list. -/
theorem holding_rerunKey (hkey : key = side.key ∨ key = side.partitionsKey)
    (h : Holding r.model side key items) {side' : Side} (hside : side' ≠ side) (rung : Rung)
    (value : Value) :
    Holding (rerunKey disabled r side' rung value Form.follow).model side key items := by
  rcases hkey with rfl | rfl
  · have hpadded := padded_rerunKey disabled r (Holding.columns.1 h) side' rung value
    rw [if_neg hside] at hpadded
    exact Holding.columns.2 hpadded
  · rw [Holding.partitions, partitions_rerunKey, if_neg hside]
    exact Holding.partitions.1 h

/-- What the result of a table has for a list. -/
theorem list?_tableResult (hkey : key = side.key ∨ key = side.partitionsKey) (side' : Side)
    (t : TableColumns) :
    (tableResult side' t).list? key =
      if side' = side then
        some (if key = side.key then t.records else t.placeholders.map .text)
      else none := by
  rcases hkey with rfl | rfl <;> cases side <;> cases side' <;> rfl

/-- Bringing the lists of a table replaces those of its side and leaves the others. -/
theorem holding_bring (hkey : key = side.key ∨ key = side.partitionsKey)
    (h : Holding r.model side key items) (side' : Side) (t : TableColumns) :
    Holding ((plan disabled Form.follow).bring r side' t).model side key
      (((tableResult side' t).list? key).getD items) := by
  rw [list?_tableResult hkey]
  rcases hkey with rfl | rfl
  · have hpadded := padded_bring disabled r (Holding.columns.1 h) side' t
    rw [Holding.columns, if_pos rfl]
    by_cases hside : side' = side
    · rwa [if_pos hside] at hpadded ⊢
    · rwa [if_neg hside] at hpadded ⊢
  · rw [Holding.partitions, partitions_bring, if_neg (side.partitionsKey_ne_key side)]
    by_cases hside : side' = side
    · rw [if_pos hside, if_pos hside]
      rfl
    · rw [if_neg hside, if_neg hside]
      exact Holding.partitions.1 h

/-- A step of the resolver that leaves a list and the chain above it alone keeps the list, or brings
it from a lookup. -/
theorem holding_take (hkey : key = side.key ∨ key = side.partitionsKey) {f : Form}
    (hf : f.Sound disabled) (h : Holding f.resolver.model side key items) {step : Step}
    (hstep : (Act.step step).LeavesAlone side key) :
    Holding (f.take step).resolver.model side key
      ((f.applies? key (.step step)).getD items) := by
  have htaken := f.take_cases step
  rw [hf.plan] at htaken
  generalize (f.take step).resolver = r' at htaken ⊢
  cases htaken with
  | refused => exact h
  | written changed value _ hplain _ =>
    exact holding_write disabled (r := f.resolver.log _) hkey h value hstep.1
      (key_ne_of_trigger? disabled hplain .target .type)
  | rerun changed value trigger htrigger _ =>
    obtain ⟨side', rung, rfl, rfl⟩ := trigger?_eq_some disabled Form.follow htrigger
    refine holding_rerunKey disabled (r := f.resolver.log _) hkey h ?_ rung value
    rintro rfl
    exact hstep.2 rung rfl
  | primed running =>
    rw [((plan disabled Form.follow).prime_model _ running).1]
    exact h
  | absent number ending hnone =>
    rw [Resolver.noted_complete] at hnone
    simp only [Form.applies?, hnone]
    exact h
  | ended number ending l hl =>
    rw [Resolver.noted_complete] at hl
    have hends := complete_cases disabled Form.follow
      (hf.tracked.known l (Resolver.lookup?_eq_some hl).1) (holds_facets f.resolver hf.tracked) ending
    simp only [Form.applies?, hl, Resolver.noted_complete]
    generalize (plan disabled Form.follow).complete f.resolver l (ending.answer l) = done at hends ⊢
    cases hends with
    | stale hstale =>
      simp only [hstale]
      exact h
    | failed hfresh cause hanswer =>
      simp only [hfresh, hanswer]
      exact h.congr hkey (Plan.value?_fail ..) (Plan.value?_fail ..)
    | skipped hfresh hanswer | offered hfresh _ _ _ _ hanswer =>
      simp only [hfresh, hanswer]
      exact h
    | brought hfresh side' t _ hanswer =>
      simp only [hfresh, hanswer]
      exact holding_bring disabled (r := f.resolver.without l) hkey h side' t

/-- An act that leaves a list and the chain above it alone keeps the list, or brings it from a
lookup. -/
theorem holding_act (hkey : key = side.key ∨ key = side.partitionsKey) {f : Form}
    (hf : f.Sound disabled) (h : Holding f.resolver.model side key items) {act : Act}
    (hact : act.LeavesAlone side key) :
    Holding (f.act act).resolver.model side key ((f.applies? key act).getD items) := by
  cases act with
  | step step => exact holding_take disabled hkey hf h hact
  | edit call => exact hact.elim
  | validate =>
    obtain ⟨m, hm, hvalues⟩ := f.validate_model
    rw [Form.act, hm]
    exact h.congr hkey (hvalues key) (hvalues Keys.targetType)
  | toParams strict =>
    obtain ⟨m, journal, hm, -, hvalues⟩ := f.toParams_model disabled hf.plan strict
    have hne : key ≠ nestedKey := by
      rcases hkey with rfl | rfl <;> cases side <;> decide
    rw [Form.act, hm]
    exact h.congr hkey (hvalues key hne) (hvalues Keys.targetType (by decide))

/-- Acts that leave a list and the chain above it alone leave the list that was applied last. -/
theorem holding_runActs (hkey : key = side.key ∨ key = side.partitionsKey) {f : Form}
    (hf : f.Sound disabled) (h : Holding f.resolver.model side key items) {acts : List Act}
    (hacts : ∀ act ∈ acts, act.LeavesAlone side key) :
    Holding (f.runActs acts).resolver.model side key (f.applied key items acts) := by
  induction acts generalizing f items with
  | nil => exact h
  | cons act rest ih =>
    exact ih (hf.act act) (holding_act disabled hkey hf h (hacts act (.head _)))
      fun other hother => hacts other (.tail _ hother)

/-! ## Where an applied list comes from -/

/-- A first load issues no lookup of a table. -/
theorem inFlight_prime {l : Lookup} (hrung : l.OfRung side .table) (running : Bool)
    (hl : l ∈ ((plan disabled Form.follow).prime r running).1.inFlight) : l ∈ r.inFlight := by
  have hold := (plan disabled Form.follow).prime_induct
    (P := fun s => ∀ l ∈ s.inFlight, l ∈ r.inFlight ∨ l.ticket.trigger ≠ side.tableKey)
    (r := r) ?_ ?_ (fun l hl => .inl hl) running l hl
  · exact hold.resolve_right fun hne => hne hrung.trigger
  · intro s d loader hd hloader hs l hl
    obtain ⟨side', -, hkey, -⟩ := exists_loader disabled hd hloader
    rcases List.mem_append.1 hl with hold | hnew
    · exact hs l hold
    · rw [List.mem_singleton.1 hnew]
      refine .inr fun hname => ?_
      exact Rung.loaderName_ne_key side side' .table ((congrArg loaderName hkey).symm.trans hname)
  · intro s d trigger _ hd htrigger hprime _ _ hs l hl
    obtain ⟨side', rung, hkey, rfl⟩ := exists_rung disabled hd htrigger
    rcases List.mem_append.1 hl with hold | hnew
    · exact hs l hold
    · rw [List.mem_singleton.1 hnew]
      refine .inr fun hname => ?_
      -- The lookup of a table is none of those that a first load issues.
      have hsame : rung.key side' = Rung.table.key side := hkey.symm.trans hname
      obtain ⟨-, rfl⟩ := key_inj.1 hsame
      cases side' <;> cases hprime

/-- A lookup of a table that is in flight after an act was in flight before, if the act leaves the
chain above it alone. -/
theorem inFlight_act {f : Form} (hf : f.Sound disabled) {act : Act}
    (hact : act.LeavesAlone side key) {l : Lookup} (hrung : l.OfRung side .table)
    (hl : l ∈ (f.act act).resolver.inFlight) : l ∈ f.resolver.inFlight := by
  cases act with
  | edit call => exact hact.elim
  | validate =>
    obtain ⟨m, hm, -⟩ := f.validate_model
    rwa [Form.act, hm] at hl
  | toParams strict =>
    obtain ⟨m, journal, hm, -⟩ := f.toParams_model disabled hf.plan strict
    rwa [Form.act, hm] at hl
  | step step =>
    have htaken := f.take_cases step
    rw [hf.plan] at htaken
    rw [Form.act] at hl
    generalize (f.take step).resolver = r' at htaken hl
    cases htaken with
    | refused | written | absent => exact hl
    | rerun changed value trigger _ _ =>
      rw [((plan disabled Form.follow).inFlight_rerun ..).1] at hl
      rcases List.mem_append.1 hl with hold | hnew
      · exact hold
      · rw [List.mem_singleton.1 hnew] at hrung
        exact absurd hrung.trigger (hact.2 .table)
    | primed running => exact inFlight_prime disabled hrung running hl
    | ended number ending done hdone =>
      have hframe := frame_complete disabled f.resolver Form.follow_listsOnly hf.tracked
        (Resolver.lookup?_eq_some hdone).1 ending
      rw [Resolver.noted_complete, hframe.inFlight] at hl
      exact (Resolver.mem_without.1 hl).1

/-- A lookup of a table that is in flight after some acts was in flight before them, if they leave
the chain above it alone. -/
theorem inFlight_runActs {f : Form} (hf : f.Sound disabled) {acts : List Act}
    (hacts : ∀ act ∈ acts, act.LeavesAlone side key) {l : Lookup} (hrung : l.OfRung side .table)
    (hl : l ∈ (f.runActs acts).resolver.inFlight) : l ∈ f.resolver.inFlight := by
  induction acts generalizing f with
  | nil => exact hl
  | cons act rest ih =>
    have hrest := ih (hf.act act) (fun other hother => hacts other (.tail _ hother)) hl
    exact inFlight_act disabled hf (hacts act (.head _)) hrung hrest

/-- A list is applied by completing a lookup of the table of its side. -/
theorem applies?_eq_some (hkey : key = side.key ∨ key = side.partitionsKey) {f : Form}
    (hf : f.Sound disabled) {act : Act} (happlies : f.applies? key act = some items) :
    ∃ l ∈ f.resolver.inFlight, l.OfRung side .table ∧
      ∃ ending, act = .step (.complete l.ticket.number ending) := by
  unfold Form.applies? at happlies
  split at happlies
  · next number ending =>
    cases hl : f.resolver.lookup? number with
    | none => simp only [hl] at happlies; cases happlies
    | some l =>
      obtain ⟨hin, hnumber⟩ := Resolver.lookup?_eq_some hl
      simp only [hl] at happlies
      split at happlies
      · next result _ hanswer =>
        obtain ⟨catalog, -, hrun⟩ := Ending.answer_eq_some hanswer
        refine ⟨l, hin, ?_, ending, by rw [hnumber]⟩
        rcases Lookup.shape (hf.tracked.known l hin) hrun with
          ⟨side', rung, choices, -, rfl⟩ | ⟨side', t, hrung, rfl⟩
        · cases happlies
        · rw [list?_tableResult hkey] at happlies
          split at happlies
          · next hside => exact hside ▸ hrung
          · cases happlies
      · cases happlies
  · cases happlies

/-- Edits are kept from all but the lookups under way. In a run of a form the user edits the columns
or the partitions of a side; afterwards neither that list nor a key of the chain above it is changed
and the mapping editor is not used. Then the list is the one that was edited or, where lookups were
applied to it afterwards, the one that they applied last, and each of these lookups was in flight
when the list was edited. -/
theorem edit_holds {values : Value} {f : Form}
    (hf : Form.ofValues values (taskForm disabled) = .ok f) (before : List Act)
    (hkey : key = side.key ∨ key = side.partitionsKey) (items : List Value) (running : Bool)
    (after : List Act) (hafter : ∀ act ∈ after, act.LeavesAlone side key) :
    let edited := (f.runActs before).act (.step (.change key (.list items) running))
    Holding (edited.runActs after).resolver.model side key (edited.applied key items after) ∧
      ∀ start act rest brought, after = start ++ act :: rest →
        (edited.runActs start).applies? key act = some brought →
          ∃ l ∈ edited.resolver.inFlight, l.OfRung side .table ∧
            ∃ ending, act = .step (.complete l.ticket.number ending) := by
  intro edited
  have hbefore : (f.runActs before).Sound disabled := (Form.sound_ofValues hf).runActs before
  have hedited : edited.Sound disabled := hbefore.act _
  have hplain : (plan disabled Form.follow).trigger? key = none := by
    obtain ⟨hcolumns, hpartitions, -⟩ := trigger?_produced disabled Form.follow side
    rcases hkey with rfl | rfl
    · exact hcolumns
    · exact hpartitions
  have hheld : (f.runActs before).resolver.model.holds key = true := by
    rcases hkey with rfl | rfl
    · exact hbefore.columns side
    · exact hbefore.partitions side
  have hholding : Holding edited.resolver.model side key items := by
    simp only [edited, Form.act, hbefore.take_plain _ running hplain hheld]
    exact holding_write_self disabled hkey
  refine ⟨holding_runActs disabled hkey hedited hholding hafter,
    fun start act rest brought hsplit happlies => ?_⟩
  have hstart : ∀ act ∈ start, act.LeavesAlone side key := fun act hact =>
    hafter act (hsplit ▸ List.mem_append_left _ hact)
  obtain ⟨l, hl, hrung, hact⟩ :=
    applies?_eq_some disabled hkey (hedited.runActs start) happlies
  exact ⟨l, inFlight_runActs disabled hedited hstart hrung hl, hrung, hact⟩

/-- An edited list stays through a validation and a first load. -/
theorem edit_kept :
    ∃ f, Form.ofValues (.object []) (taskForm []) = .ok f ∧
      let edited := f.act (.step (.change Keys.sourceColumns (.list [.column Column.empty]) true))
      Holding (edited.runActs [.validate, .step (.prime true)]).resolver.model .source
        Keys.sourceColumns [.column Column.empty] := by
  obtain ⟨f, hf⟩ : ∃ f, Form.ofValues (.object []) (taskForm []) = .ok f :=
    ⟨_, Form.ofValues_taskForm ..⟩
  have hkey : Keys.sourceColumns = Side.source.key ∨
      Keys.sourceColumns = Side.source.partitionsKey := .inl rfl
  have hkept := (edit_holds [] hf [] hkey [.column Column.empty] true
    [.validate, .step (.prime true)] (by simp [Act.LeavesAlone])).1
  simp only [Form.runActs, List.foldl, Form.applied, Form.applies?, Option.getD_none] at hkept ⊢
  exact ⟨f, hf, hkept⟩

/-- An edited list does not stay where a lookup of its table was in flight: the table that the
lookup brings has no columns, and none are left of the edit. -/
theorem edit_overwritten :
    let bare : TableColumns := { columns := [], partitionColumns := [], partitioned := false }
    let catalog : Catalog := { Fixture.empty.toCatalog with columns := fun _ _ => .ok bare }
    let lookup : Act := .step (.complete 0 (.answered catalog))
    let mine : Value := .column { Column.empty with name := .text "mine" }
    lookup.LeavesAlone .source Keys.sourceColumns ∧
    ∃ f, Form.ofValues (.object [(Keys.sourceInstance, .text "1")]) (taskForm []) = .ok f ∧
      ¬ Holding (f.runActs [.step (.change Keys.sourceTable (.text "orders") true),
        .step (.change Keys.sourceColumns (.list [mine]) true), lookup]).resolver.model .source
          Keys.sourceColumns [mine] := by
  intro bare catalog lookup mine
  let f := Form.onModel [] (((Model.ofMembers [(Keys.sourceInstance, .text "1")]).ensure
    Keys.sourceColumns (.list [])).ensure Keys.targetColumns (.list []))
  have hf : Form.ofValues (.object [(Keys.sourceInstance, .text "1")]) (taskForm []) = .ok f :=
    Form.ofValues_taskForm ..
  refine ⟨trivial, f, hf, ?_⟩
  have hempty : ((f.runActs [.step (.change Keys.sourceTable (.text "orders") true),
      .step (.change Keys.sourceColumns (.list [mine]) true),
      lookup]).resolver.model.get Side.source.key).isTrue = false := by
    have hchange := (Form.sound_ofValues hf).take_rung_steps .source .table (.text "orders")
    simp only [Rung.key, Side.tableKey] at hchange
    simp only [Form.runActs, List.foldl, Form.act]
    rw [hchange]
    decide +kernel
  rintro ⟨n, hn, -⟩
  rw [Model.get_of_value? hn] at hempty
  cases hempty

end Template

end SyncForm
