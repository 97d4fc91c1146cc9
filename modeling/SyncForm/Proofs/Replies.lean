import SyncForm.Catalog.Remote

/-!
# Whatever a service replies

A remote catalog makes of a reply what the operation promises, or a report that names the operation
and carries the status of the reply where that is an error. One kind of reply gets past the reports:
where a list is asked for, data that counts as given and has no items, which are `true` and the
numbers but zero. `Remote.Outcome` lists the three ways in which an operation comes out, and
`Remote.comes_out` says that every operation comes out in one of them; `Remote.tables_unread` is a
reply of the third kind.
-/

namespace SyncForm

/-- The status of a reply, if it is one of an error. -/
def Reply.errorStatus? : Reply → Option Int
  | answered status _ => if 200 ≤ status ∧ status < 300 then none else some status
  | lost _ => none

/-- A fault is a report of a catalog on an operation, with a status where there is one. -/
def Fault.IsOfCatalog (fault : Fault) (operation : String) (status : Option Int) : Prop :=
  ∃ report cause, fault = .report report ∧ report.subject = .catalog (some operation) status cause

/-- A value lists items: it does not count as given, or is made of something. -/
def Value.ListsItems (v : Value) : Prop :=
  v.isTrue = true → v.isAtom = false

/-- A table that is answered has a name. -/
def Value.IsTable (v : Value) : Prop :=
  ∃ name, v = .text name ∧ name ≠ ""

/-- Conversions one after the other end in a fault of one of them. -/
theorem exists_of_mapM_eq_error {ε α β : Type} {f : α → Except ε β} {xs : List α} {fault : ε}
    (h : xs.mapM f = .error fault) : ∃ x ∈ xs, f x = .error fault := by
  induction xs with
  | nil => cases h
  | cons x rest ih =>
    rw [List.mapM_cons] at h
    cases hx : f x with
    | error cause =>
      rw [hx] at h
      cases h
      exact ⟨x, .head _, hx⟩
    | ok y =>
      cases hrest : rest.mapM f with
      | error cause =>
        rw [hx, hrest] at h
        cases h
        obtain ⟨other, hother, hfails⟩ := ih hrest
        exact ⟨other, .tail _ hother, hfails⟩
      | ok ys =>
        rw [hx, hrest] at h
        cases h

namespace Remote

variable {operation : String} {reply : Reply} {data : Value} {fault : Fault}

/-- The ways in which an operation comes out on a reply: with a result, with a report, or with a
fault of its own where the data are not readable. -/
inductive Outcome {α : Type} (operation : String) (reply : Reply) (readable : Value → Prop)
    (good : α → Prop) : Except Fault α → Prop
  | result {data : Value} {a : α} : receive operation reply = .ok data → readable data →
    reply.errorStatus? = none → good a → Outcome operation reply readable good (.ok a)
  | report {fault : Fault} : (∀ data, receive operation reply = .ok data → readable data) →
    fault.IsOfCatalog operation reply.errorStatus? →
    Outcome operation reply readable good (.error fault)
  | unread {data : Value} : receive operation reply = .ok data → ¬ readable data →
    Outcome operation reply readable good (.error (.notIterable data.kind))

/-! ## The data of a reply -/

/-- What goes wrong with a reply before its payload is read is reported with its status. -/
theorem payload_spec (operation : String) (reply : Reply) :
    (∃ value, payload operation reply = .ok value ∧ reply.errorStatus? = none) ∨
      ∃ fault, payload operation reply = .error fault ∧
        fault.IsOfCatalog operation reply.errorStatus? := by
  cases reply with
  | lost error => exact .inr ⟨_, rfl, _, _, rfl, rfl⟩
  | answered status body =>
    unfold payload Reply.errorStatus?
    dsimp only
    split
    · cases Json.read (withoutMark body) with
      | ok document => exact .inl ⟨_, rfl, rfl⟩
      | error flaw => cases flaw <;> exact .inr ⟨_, rfl, _, _, rfl, rfl⟩
    · exact .inr ⟨_, rfl, _, _, rfl, rfl⟩

/-- An envelope is opened, or reported without a status. -/
theorem dataOf_spec (operation : String) (value : Value) :
    (∃ data, dataOf operation value = .ok data) ∨
      ∃ fault, dataOf operation value = .error fault ∧ fault.IsOfCatalog operation none := by
  unfold dataOf
  split
  · exact .inl ⟨_, rfl⟩
  · split
    · exact .inl ⟨_, rfl⟩
    · exact .inr ⟨_, rfl, _, _, rfl, rfl⟩

/-- A reply has data, in which case its status is no error, or it is reported with its status. -/
theorem receive_spec (operation : String) (reply : Reply) :
    (∃ data, receive operation reply = .ok data ∧ reply.errorStatus? = none) ∨
      ∃ fault, receive operation reply = .error fault ∧
        fault.IsOfCatalog operation reply.errorStatus? := by
  unfold receive
  rcases payload_spec operation reply with ⟨value, hvalue, hstatus⟩ | ⟨fault, hfault, hreport⟩
  · rw [hvalue, hstatus]
    rcases dataOf_spec operation value with ⟨data, hdata⟩ | ⟨fault, hfault, hreport⟩
    · exact .inl ⟨data, hdata, rfl⟩
    · exact .inr ⟨fault, hfault, hreport⟩
  · rw [hfault]
    exact .inr ⟨fault, rfl, hreport⟩

/-- An operation comes out in one of the ways if it reads readable data as it should, and fails on
all other data as on what has no items. -/
theorem outcome_of_receive {α : Type} {readable : Value → Prop} {good : α → Prop}
    (read : Value → Except Fault α)
    (hread : ∀ data, readable data → (∃ a, read data = .ok a ∧ good a) ∨
      ∃ fault, read data = .error fault ∧ fault.IsOfCatalog operation none)
    (hunread : ∀ data, ¬ readable data → read data = .error (.notIterable data.kind)) :
    Outcome operation reply readable good (receive operation reply >>= read) := by
  rcases receive_spec operation reply with ⟨data, hdata, hstatus⟩ | ⟨fault, hfault, hreport⟩
  · have hbind : receive operation reply >>= read = read data := by rw [hdata]; rfl
    rw [hbind]
    by_cases hreadable : readable data
    · rcases hread data hreadable with ⟨a, ha, hgood⟩ | ⟨fault, hfault, hreport⟩
      · rw [ha]
        exact .result hdata hreadable hstatus hgood
      · rw [hfault]
        refine .report (fun other hother => ?_) (hstatus ▸ hreport)
        cases hdata.symm.trans hother
        exact hreadable
    · rw [hunread data hreadable]
      exact .unread hdata hreadable
  · have hbind : receive operation reply >>= read = .error fault := by rw [hfault]; rfl
    rw [hbind]
    refine .report (fun data hdata => ?_) hreport
    cases hfault.symm.trans hdata

/-! ## The three operations -/

/-- Data of the wrong shape are reported without a status. -/
theorem shaped_spec {α : Type} (operation message : String) (c : Checked α) :
    (∃ a, shaped operation message c = .ok a) ∨
      ∃ fault, shaped operation message c = .error fault ∧ fault.IsOfCatalog operation none := by
  cases c with
  | ok a => exact .inl ⟨a, rfl⟩
  | error issues => exact .inr ⟨_, rfl, _, _, rfl, rfl⟩

/-- What lists items has its items taken out. -/
theorem exists_itemsOf (h : data.ListsItems) : ∃ items, itemsOf data = .ok items := by
  cases hitems : itemsOf data with
  | ok items => exact ⟨items, rfl⟩
  | error fault =>
    unfold itemsOf Value.orElse at hitems
    have hatom := (Value.toSequence_eq_error.1 hitems).1
    split at hatom
    · next hgiven =>
      rw [h hgiven] at hatom
      cases hatom
    · cases hatom

/-- What lists no items has none to take out. -/
theorem itemsOf_of_not_lists (h : ¬ data.ListsItems) :
    itemsOf data = .error (.notIterable data.kind) := by
  obtain ⟨hgiven, hatom⟩ := Classical.not_imp.1 h
  unfold itemsOf Value.orElse
  rw [if_pos hgiven]
  exact Value.toSequence_eq_error.2 ⟨eq_true_of_ne_false hatom, rfl⟩

/-- Instances are read out of items, or their shape is reported. -/
theorem outcome_instances (operation : String) (reply : Reply) :
    Outcome operation reply Value.ListsItems (fun _ => True) (readInstances operation reply) := by
  have hbind : readInstances operation reply = receive operation reply >>= fun data =>
      itemsOf data >>= fun items => items.mapM fun v =>
        shaped operation "Malformed datasource list" (DatasourceInstance.ofValue v) := rfl
  rw [hbind]
  refine outcome_of_receive _ (fun data hdata => ?_) fun data hdata => ?_
  · obtain ⟨items, hitems⟩ := exists_itemsOf hdata
    rw [hitems]
    cases hread : items.mapM fun v =>
        shaped operation "Malformed datasource list" (DatasourceInstance.ofValue v) with
    | ok instances => exact .inl ⟨instances, hread, trivial⟩
    | error fault =>
      obtain ⟨v, -, hv⟩ := exists_of_mapM_eq_error hread
      rcases shaped_spec operation "Malformed datasource list" (DatasourceInstance.ofValue v) with
        ⟨a, ha⟩ | ⟨other, hother, hreport⟩
      · cases hv.symm.trans ha
      · cases hv.symm.trans hother
        exact .inr ⟨fault, hread, hreport⟩
  · rw [itemsOf_of_not_lists hdata]
    rfl

/-- Tables are read out of items, each with a name. -/
theorem outcome_tables (operation : String) (reply : Reply) :
    Outcome operation reply Value.ListsItems (fun tables => ∀ t ∈ tables, t.IsTable)
      (readTables operation reply) := by
  have hbind : readTables operation reply = receive operation reply >>= fun data =>
      itemsOf data >>= fun items =>
        .ok (((items.map tableName).filter (!·.isEmpty)).map .text) := rfl
  rw [hbind]
  refine outcome_of_receive _ (fun data hdata => ?_) fun data hdata => ?_
  · obtain ⟨items, hitems⟩ := exists_itemsOf hdata
    rw [hitems]
    refine .inl ⟨_, rfl, fun t ht => ?_⟩
    obtain ⟨name, hname, rfl⟩ := List.mem_map.1 ht
    have hgiven := (List.mem_filter.1 hname).2
    refine ⟨name, rfl, ?_⟩
    rintro rfl
    cases hgiven
  · rw [itemsOf_of_not_lists hdata]
    rfl

/-- Columns are read out of any data, or their shape is reported. -/
theorem outcome_columns (operation : String) (reply : Reply) :
    Outcome operation reply (fun _ => True) (fun _ => True) (readColumns operation reply) := by
  refine outcome_of_receive (fun data => shaped operation "Malformed column payload"
    (TableColumns.ofValue (data.orElse (.object [])))) (fun data _ => ?_)
    fun data hdata => absurd trivial hdata
  rcases shaped_spec operation "Malformed column payload"
    (TableColumns.ofValue (data.orElse (.object []))) with ⟨a, ha⟩ | hreported
  · exact .inl ⟨a, ha, trivial⟩
  · exact .inr hreported

/-- Whatever a service replies to a question, the catalog comes out with what the operation promises
— instances, tables with names, columns — or with a report that names the operation and carries the
status of the reply just where that is an error. No other fault gets out, but on one kind of reply
to the questions for instances and tables: data that count as given and list nothing. -/
theorem comes_out (r : Remote) (send : Request → Reply) :
    (∀ type, ∃ request, r.request? (.instances type) = some request ∧
      Outcome (Query.instances type).operation (send request) Value.ListsItems (fun _ => True)
        ((r.toCatalog send).instances type)) ∧
    (∀ datasource, ∃ request, r.request? (.tables datasource) = some request ∧
      Outcome (Query.tables datasource).operation (send request) Value.ListsItems
        (fun tables => ∀ t ∈ tables, t.IsTable) ((r.toCatalog send).tables datasource)) ∧
    ∀ datasource table, ∃ request, r.request? (.columns datasource table) = some request ∧
      Outcome (Query.columns datasource table).operation (send request) (fun _ => True)
        (fun _ => True) ((r.toCatalog send).columns datasource table) := by
  refine ⟨fun type => ⟨_, rfl, ?_⟩, fun datasource => ⟨_, rfl, ?_⟩,
    fun datasource table => ⟨_, rfl, ?_⟩⟩
  · exact outcome_instances _ _
  · exact outcome_tables _ _
  · exact outcome_columns _ _

/-- A service that replies with a number to every question. -/
def replyNumber : Request → Reply :=
  fun _ => .answered 200 "5".toList

/-- Asked for its tables, such a service makes the catalog fail without a report. -/
theorem tables_unread :
    let answer := ((ofAddress "http://scheduler.test/api" none).toCatalog replyNumber).tables
      (.text "1")
    answer = .error (.notIterable "int") ∧
      ∀ fault operation status, answer = .error fault → ¬ fault.IsOfCatalog operation status := by
  have hanswer : ((ofAddress "http://scheduler.test/api" none).toCatalog replyNumber).tables
      (.text "1") = .error (.notIterable "int") := by
    rfl
  refine ⟨hanswer, ?_⟩
  rintro fault operation status hfault ⟨report, cause, rfl, -⟩
  cases hanswer.symm.trans hfault

end Remote

end SyncForm
