import SyncForm.Proofs.Chain

/-!
# What the lookups of the task form bring

Every lookup in flight of the task form is the lookup of a rung or the loader of a type. Its fetch
asks at most one question, and what it writes back has one of two shapes: one list of choices for
the field below its rung (`Rung.run_type`, `Rung.run_place`), or the columns and partitions of its
side (`Rung.run_table`). `Lookup.shape` sums this up.
-/

namespace SyncForm

/-- A lookup that a rung has issued. -/
structure Lookup.OfRung (l : Lookup) (side : Side) (rung : Rung) : Prop where
  trigger : l.ticket.trigger = rung.key side
  fetch : l.fetch = (rung.trigger side).fetch
  compareKey : l.compareKey = some (rung.key side)
  value : l.ticket.value = Snapshot.get l.snapshot (rung.key side)

/-- A lookup is one of one rung. -/
theorem Lookup.OfRung.inj {l : Lookup} {side side' : Side} {rung rung' : Rung}
    (h : l.OfRung side rung) (h' : l.OfRung side' rung') : side = side' ∧ rung = rung' :=
  Template.key_inj.1 (h.trigger.symm.trans h'.trigger)

/-- A lookup that loads the choices of the type of a side. -/
structure Lookup.OfLoader (l : Lookup) (side : Side) : Prop where
  trigger : l.ticket.trigger = loaderName side.typeKey
  fetch : ∃ sourcesOnly disabled, l.fetch = .types side.typeKey sourcesOnly disabled
  compareKey : l.compareKey = none

/-- A lookup of the task form. -/
def Lookup.Known (l : Lookup) : Prop :=
  (∃ side rung, l.OfRung side rung) ∨ ∃ side, l.OfLoader side

/-- A lookup brings the choices of the field of a rung: the loader those of the type, the lookup of
a rung those of the rung below it. -/
def Lookup.Fills (l : Lookup) (side : Side) (rung : Rung) : Prop :=
  (l.OfLoader side ∧ rung = .type) ∨ ∃ upper, l.OfRung side upper ∧ rung.depth = upper.depth + 1

/-- The key whose value may keep the tables of a side from being looked up; the target has one. -/
def Side.sinkKey? : Side → Option String
  | source => none
  | target => some Keys.targetType

/-- What the lookup of a table writes back. -/
def tableResult (side : Side) (t : TableColumns) : LookupResult :=
  { values := [(side.key, .list t.records),
      (side.partitionsKey, .list (t.placeholders.map .text))] }

/-- Whether a snapshot shows a single sink under a key, if there is that key to look at. -/
def Snapshot.sinks (s : Snapshot) (key? : Option String) : Bool :=
  match key? with
  | some key => Datasource.isSingleSink (Snapshot.get s key)
  | none => false

namespace Fetch

variable (s : Snapshot) (catalog : Catalog)

/-- What is made of an answer is what the lookup brings. -/
theorem bind_map_some {α : Type} (answer : Except Fault α) (make : α → LookupResult) :
    (do return some (← answer.map make)) = answer.map fun a => some (make a) := by
  cases answer <;> rfl

/-- A loader offers the types of the catalog. -/
theorem run_types (field : String) (sourcesOnly : Bool) (disabled : List String) :
    (types field sourcesOnly disabled).run s catalog =
      catalog.types.map fun ts =>
        some { choices := [(field, typeChoices ts sourcesOnly disabled)] } :=
  bind_map_some ..

/-- The instances of a type are asked for where there is a type. -/
theorem run_instances (typeKey field : String) :
    (instances typeKey field).run s catalog =
      if (Snapshot.get s typeKey).isTrue then
        (catalog.instances (Snapshot.get s typeKey)).map fun is =>
          some { choices := [(field, instanceChoices is)] }
      else .ok none := by
  unfold run query?
  by_cases hasks : (Snapshot.get s typeKey).isTrue = true
  · simp only [if_pos hasks]
    exact bind_map_some ..
  · simp only [if_neg hasks]

/-- The question about the tables of an instance. -/
theorem query?_tables (instanceKey field : String) (unlessSink : Option String) :
    (tables instanceKey field unlessSink).query? s =
      if (Snapshot.get s instanceKey).isTrue && !Snapshot.sinks s unlessSink then
        some (.tables (.text (Snapshot.get s instanceKey).plain))
      else none :=
  rfl

/-- The tables of an instance are asked for where there is one and nothing stands against it. -/
theorem run_tables (instanceKey field : String) (unlessSink : Option String) :
    (tables instanceKey field unlessSink).run s catalog =
      if (Snapshot.get s instanceKey).isTrue && !Snapshot.sinks s unlessSink then
        (catalog.tables (.text (Snapshot.get s instanceKey).plain)).map fun ts =>
          some { choices := [(field, tableChoices ts)] }
      else .ok none := by
  unfold run
  rw [query?_tables]
  by_cases hasks : ((Snapshot.get s instanceKey).isTrue && !Snapshot.sinks s unlessSink) = true
  · simp only [if_pos hasks]
    exact bind_map_some ..
  · simp only [if_neg hasks]

/-- The columns of a table are asked for where there are an instance and a table. -/
theorem run_columns (instanceKey tableKey columnsKey partitionsKey : String) :
    (columns instanceKey tableKey columnsKey partitionsKey).run s catalog =
      if (Snapshot.get s instanceKey).isTrue && (Snapshot.get s tableKey).isTrue then
        (catalog.columns (.text (Snapshot.get s instanceKey).plain)
            (Snapshot.get s tableKey)).map fun t =>
          some { values := [(columnsKey, .list t.records),
            (partitionsKey, .list (t.placeholders.map .text))] }
      else .ok none := by
  unfold run query?
  by_cases hasks : ((Snapshot.get s instanceKey).isTrue && (Snapshot.get s tableKey).isTrue) = true
  · simp only [if_pos hasks]
    exact bind_map_some ..
  · simp only [if_neg hasks]

end Fetch

/-- Where there is a result a question was asked. -/
theorem Fetch.query?_of_run {f : Fetch} {s : Snapshot} {catalog : Catalog} {result : LookupResult}
    (h : f.run s catalog = .ok (some result)) : ∃ query, f.query? s = some query := by
  cases hquery : f.query? s with
  | some query => exact ⟨query, rfl⟩
  | none =>
    simp only [Fetch.run, hquery] at h
    cases h

namespace Rung

/-- What the lookup of a rung fetches. -/
theorem fetch_trigger (rung : Rung) (side : Side) :
    (rung.trigger side).fetch =
      match rung with
      | type => .instances side.typeKey side.instanceKey
      | place => .tables side.instanceKey side.tableKey side.sinkKey?
      | table => .columns side.instanceKey side.tableKey side.key side.partitionsKey := by
  cases rung <;> cases side <;> rfl

variable {side : Side} {s : Snapshot} {catalog : Catalog} {result : LookupResult}

/-- The lookup of a type asks for the instances of that type and offers them. -/
theorem run_type (h : (type.trigger side).fetch.run s catalog = .ok (some result)) :
    ∃ is, (type.trigger side).fetch.query? s = some (.instances (Snapshot.get s side.typeKey)) ∧
      catalog.instances (Snapshot.get s side.typeKey) = .ok is ∧
      result = { choices := [(side.instanceKey, Fetch.instanceChoices is)] } := by
  simp only [fetch_trigger, Fetch.run_instances] at h ⊢
  split at h
  · next htrue =>
    obtain ⟨is, his, hresult⟩ := Except.of_map_eq_ok h
    exact ⟨is, if_pos htrue, his, (Option.some.inj hresult).symm⟩
  · cases h

/-- The lookup of an instance asks for its tables and offers them. -/
theorem run_place (h : (place.trigger side).fetch.run s catalog = .ok (some result)) :
    ∃ ts, (place.trigger side).fetch.query? s =
        some (.tables (.text (Snapshot.get s side.instanceKey).plain)) ∧
      Snapshot.sinks s side.sinkKey? = false ∧
      catalog.tables (.text (Snapshot.get s side.instanceKey).plain) = .ok ts ∧
      result = { choices := [(side.tableKey, Fetch.tableChoices ts)] } := by
  simp only [fetch_trigger, Fetch.run_tables, Fetch.query?_tables] at h ⊢
  split at h
  · next htrue =>
    obtain ⟨ts, hts, hresult⟩ := Except.of_map_eq_ok h
    have hsink := (Bool.and_eq_true_iff.1 htrue).2
    exact ⟨ts, if_pos htrue, Bool.not_eq_eq_eq_not.1 hsink, hts, (Option.some.inj hresult).symm⟩
  · cases h

/-- The lookup of a table asks for its columns and writes them and the partitions. -/
theorem run_table (h : (table.trigger side).fetch.run s catalog = .ok (some result)) :
    ∃ t, (table.trigger side).fetch.query? s =
        some (.columns (.text (Snapshot.get s side.instanceKey).plain)
          (Snapshot.get s side.tableKey)) ∧
      catalog.columns (.text (Snapshot.get s side.instanceKey).plain)
        (Snapshot.get s side.tableKey) = .ok t ∧
      result = tableResult side t := by
  simp only [fetch_trigger, Fetch.run_columns] at h ⊢
  split at h
  · next htrue =>
    obtain ⟨t, ht, hresult⟩ := Except.of_map_eq_ok h
    exact ⟨t, if_pos htrue, ht, (Option.some.inj hresult).symm⟩
  · cases h

/-- The lookup of a rung sees no more than the values at the rung and above it. -/
theorem fetch_congr (rung : Rung) (side : Side) {s s' : Snapshot}
    (h : ∀ other : Rung, other.depth ≤ rung.depth →
      Snapshot.get s (other.key side) = Snapshot.get s' (other.key side)) :
    (rung.trigger side).fetch.query? s = (rung.trigger side).fetch.query? s' ∧
      ∀ catalog, (rung.trigger side).fetch.run s catalog =
        (rung.trigger side).fetch.run s' catalog := by
  have htype : Snapshot.get s side.typeKey = Snapshot.get s' side.typeKey :=
    h .type (Nat.zero_le _)
  simp only [fetch_trigger]
  cases rung with
  | type => simp only [Fetch.query?, Fetch.run_instances, htype, implies_true, and_self]
  | place =>
    have hplace : Snapshot.get s side.instanceKey = Snapshot.get s' side.instanceKey :=
      h .place (Nat.le_refl _)
    have hsink : Snapshot.sinks s side.sinkKey? = Snapshot.sinks s' side.sinkKey? := by
      cases side with
      | source => rfl
      | target => exact congrArg Datasource.isSingleSink htype
    simp only [Fetch.query?_tables, Fetch.run_tables, hplace, hsink, implies_true, and_self]
  | table =>
    have hplace : Snapshot.get s side.instanceKey = Snapshot.get s' side.instanceKey :=
      h .place (by decide)
    have htable : Snapshot.get s side.tableKey = Snapshot.get s' side.tableKey :=
      h .table (Nat.le_refl _)
    simp only [Fetch.query?, Fetch.run_columns, hplace, htable, implies_true, and_self]

end Rung

/-- Two models agree on a rung and on those above it. -/
def SameDownTo (side : Side) (rung : Rung) (m m' : Model) : Prop :=
  ∀ other : Rung, other.depth ≤ rung.depth → m'.value? (other.key side) = m.value? (other.key side)

/-- What a snapshot shows of a key. -/
theorem Snapshot.get_snapshot (m : Model) (key : String) :
    Snapshot.get m.snapshot key = m.get key :=
  congrArg (Option.getD · Value.null) (m.valueOf?_snapshot key)

/-- The lookup of a rung fetches the same for models that agree down to the rung. -/
theorem SameDownTo.fetch_eq {side : Side} {rung : Rung} {m m' : Model}
    (h : SameDownTo side rung m m') :
    (rung.trigger side).fetch.query? m'.snapshot = (rung.trigger side).fetch.query? m.snapshot ∧
      ∀ catalog, (rung.trigger side).fetch.run m'.snapshot catalog =
        (rung.trigger side).fetch.run m.snapshot catalog := by
  refine Rung.fetch_congr rung side fun other hother => ?_
  rw [Snapshot.get_snapshot, Snapshot.get_snapshot, Model.get_congr (h other hother)]

/-- What a lookup of the task form writes back is the choices of one field, or the lists of a
side. -/
theorem Lookup.shape {l : Lookup} (hl : l.Known) {catalog : Catalog} {result : LookupResult}
    (h : l.fetch.run l.snapshot catalog = .ok (some result)) :
    (∃ side rung choices, l.Fills side rung ∧
      result = { choices := [(Rung.key rung side, choices)] }) ∨
    ∃ side t, l.OfRung side .table ∧ result = tableResult side t := by
  rcases hl with ⟨side, rung, hr⟩ | ⟨side, hr⟩
  · rw [hr.fetch] at h
    cases rung with
    | type =>
      obtain ⟨is, -, -, rfl⟩ := Rung.run_type h
      exact .inl ⟨side, .place, _, .inr ⟨.type, hr, rfl⟩, rfl⟩
    | place =>
      obtain ⟨ts, -, -, -, rfl⟩ := Rung.run_place h
      exact .inl ⟨side, .table, _, .inr ⟨.place, hr, rfl⟩, rfl⟩
    | table =>
      obtain ⟨t, -, -, rfl⟩ := Rung.run_table h
      exact .inr ⟨side, t, hr, rfl⟩
  · obtain ⟨sourcesOnly, disabled, hfetch⟩ := hr.fetch
    rw [hfetch, Fetch.run_types] at h
    obtain ⟨ts, -, hresult⟩ := Except.of_map_eq_ok h
    exact .inl ⟨side, .type, _, .inl ⟨hr, rfl⟩, (Option.some.inj hresult).symm⟩

end SyncForm
