import Mathlib.Data.List.Forall2
import SyncForm.Proofs.FirstLoad
import SyncForm.Proofs.TypeCodes

/-!
# What a first load asks for

A first load of the task form asks for the choices of the types, and for those of an instance or a
table where there is a value above it (`Template.wanted`). `Template.prime_wanted` says that it
issues one lookup for each of these rungs and no other one, and `Lookup.Serves.answer_eq` what the
lookup of a rung comes to.
-/

namespace SyncForm

/-! ## What is asked for -/

/-- The key that a lookup compares for the choices of a rung, if any: the one above. -/
def Rung.above? : Rung → Side → Option String
  | type, _ => none
  | place, side => some side.typeKey
  | table, side => some side.instanceKey

/-- The name of the lookup that brings the choices of a rung. -/
def Rung.filler (rung : Rung) (side : Side) : String :=
  (rung.above? side).getD (loaderName side.typeKey)

/-- Whether a first load asks for the choices of a rung: for those of a type always, for the others
where there is a value above. -/
def Rung.isWanted (m : Model) (rung : Rung) (side : Side) : Bool :=
  (rung.above? side).all fun key => (m.get key).isTrue

/-- The rungs of both sides, in order. -/
def Template.rungs : List (Side × Rung) :=
  [(.source, .type), (.source, .place), (.source, .table), (.target, .type), (.target, .place),
    (.target, .table)]

/-- The rungs for whose choices a first load asks, in order. -/
def Template.wanted (m : Model) : List (Side × Rung) :=
  rungs.filter fun p => p.2.isWanted m p.1

/-- What a catalog answers when it is asked for the choices of a rung, in its order: the enabled
types that are not disabled, for the source those that can be read from; the names of the instances
of the type, which stand for their ids; and the tables of the instance as they are. A target that
takes free-form records has no tables. -/
def Rung.choicesFrom (disabled : List String) (m : Model) (side : Side) (catalog : Catalog) :
    Rung → Except Fault (Option (List Choice))
  | type => catalog.types.map fun ts =>
      some ((ts.filter fun t => t.enabled && !(disabled.map Text.upper).contains t.code &&
        (Datasource.isSource (.text t.code) || !side.sourcesOnly)).map fun t =>
          ⟨.text t.code, .text t.code⟩)
  | place => (catalog.instances (m.get side.typeKey)).map fun is =>
      some (is.map fun i => ⟨.text i.name, .text i.id⟩)
  | table =>
    if side = .target ∧ Mapping.isSingleSink m = true then .ok none
    else (catalog.tables (.text (m.get side.instanceKey).plain)).map fun ts =>
      some (ts.map fun t => ⟨t, t⟩)

/-- What the lookup for the choices of a rung comes to. -/
def Rung.brought (disabled : List String) (m : Model) (side : Side) (rung : Rung) :
    Ending → Except Fault (Option (List Choice))
  | .answered catalog => rung.choicesFrom disabled m side catalog
  | .failed fault => .error fault

/-! ## What is issued -/

/-- A lookup that was issued for a request on a model. -/
structure Lookup.Serves (l : Lookup) (q : LookupRequest) (m : Model) : Prop where
  trigger : l.ticket.trigger = q.name
  fetch : l.fetch = q.fetch
  compareKey : l.compareKey = q.compareKey
  snapshot : l.snapshot = m.snapshot
  value : l.ticket.value = (q.compareKey.map m.get).getD .null

/-- Lookups issued one after the other are in flight in that order, behind the others. -/
theorem Resolver.issueAll_spec (r : Resolver) (requests : List LookupRequest) :
    ∃ new, (r.issueAll requests).1.inFlight = r.inFlight ++ new ∧
      (r.issueAll requests).2 = new.map (·.ticket) ∧
      List.Forall₂ (fun q l => Lookup.Serves l q r.model) requests new ∧
      ∀ l ∈ new, r.issued ≤ l.ticket.number := by
  induction requests generalizing r with
  | nil => exact ⟨[], (List.append_nil _).symm, rfl, .nil, fun _ hl => absurd hl List.not_mem_nil⟩
  | cons q rest ih =>
    obtain ⟨new, hin, htickets, hserves, hnumbers⟩ := ih (r.reissue q.name q.fetch q.compareKey).1
    refine ⟨r.newLookup q.name q.fetch q.compareKey :: new, ?_, ?_, .cons ?_ hserves, ?_⟩
    · refine hin.trans ?_
      rw [inFlight_reissue, List.append_assoc]
      rfl
    · exact congrArg _ htickets
    · exact ⟨rfl, rfl, rfl, rfl, rfl⟩
    · intro l hl
      rcases List.mem_cons.1 hl with rfl | hl
      · exact Nat.le_refl _
      · exact Nat.le_of_succ_le (hnumbers l hl)

/-- What is asked for the choices of a rung. -/
def Rung.request (disabled : List String) (rung : Rung) (side : Side) : LookupRequest where
  name := rung.filler side
  fetch :=
    match rung with
    | type => .types side.typeKey side.sourcesOnly (disabled.map Text.upper)
    | place => (Rung.type.trigger side).fetch
    | table => (Rung.place.trigger side).fetch
  compareKey := rung.above? side

namespace Template

variable (disabled : List String)

/-- The requests of the task form on first load are those for the choices that are wanted. -/
theorem requests_taskForm (m : Model) :
    Plan.requests m (taskForm disabled) =
      (wanted m).map fun p => p.2.request disabled p.1 := by
  have hall : ((taskForm disabled).flatMap fun d =>
      Plan.loaderRequests d ++ Plan.triggerRequests d) =
        rungs.map fun p => p.2.request disabled p.1 := rfl
  rw [Plan.requests, hall, List.filter_map]
  rfl

/-- A first load issues the lookups for the choices that are wanted, each the latest of its name. -/
theorem prime_wanted (react : Reaction) {r : Resolver} (h : r.Tracked) (hidle : r.inFlight = []) :
    ((plan disabled react).prime r true).2 =
        .ok (((plan disabled react).prime r true).1.inFlight.map (·.ticket)) ∧
      List.Forall₂ (fun p l => Lookup.Serves l (p.2.request disabled p.1) r.model)
        (wanted r.model) ((plan disabled react).prime r true).1.inFlight ∧
      ∀ l ∈ ((plan disabled react).prime r true).1.inFlight, r.issued ≤ l.ticket.number ∧
        ((plan disabled react).prime r true).1.Latest l := by
  have hprime := prime_eq disabled react h
  rw [requests_taskForm] at hprime
  obtain ⟨new, hin, htickets, hserves, hnumbers⟩ :=
    r.issueAll_spec ((wanted r.model).map fun p => p.2.request disabled p.1)
  rw [hidle, List.nil_append] at hin
  have hnew : ((plan disabled react).prime r true).1.inFlight = new := by
    rw [hprime]
    exact hin
  rw [hnew]
  refine ⟨?_, List.forall₂_map_left_iff.1 hserves, fun l hl => ?_⟩
  · rw [hprime, htickets]
  · exact ⟨hnumbers l hl, latest_prime disabled react h (hnew.symm ▸ hl) (hnumbers l hl)⟩

end Template

/-- A lookup for the choices of a rung comes to what the rung is brought. -/
theorem Lookup.Serves.answer_eq {l : Lookup} {disabled : List String} {m : Model} {side : Side}
    {rung : Rung} (h : l.Serves (rung.request disabled side) m)
    (hwanted : rung.isWanted m side = true) (ending : Ending) :
    ending.answer l = (rung.brought disabled m side ending).map
      (Option.map fun choices => { choices := [(rung.key side, choices)] }) := by
  cases ending with
  | failed fault => rfl
  | answered catalog =>
    rw [Ending.answer, h.fetch, h.snapshot, Rung.brought]
    cases rung with
    | type =>
      refine (Fetch.run_types ..).trans ?_
      rw [Rung.choicesFrom]
      cases catalog.types <;> rfl
    | place =>
      have htrue : (m.get side.typeKey).isTrue = true := hwanted
      have hfetch : (Rung.place.request disabled side).fetch =
          .instances side.typeKey side.instanceKey := Rung.fetch_trigger .type side
      rw [hfetch, Fetch.run_instances, Snapshot.get_snapshot, if_pos htrue, Rung.choicesFrom]
      cases catalog.instances (m.get side.typeKey) <;> rfl
    | table =>
      have htrue : (m.get side.instanceKey).isTrue = true := hwanted
      have hfetch : (Rung.table.request disabled side).fetch =
          .tables side.instanceKey side.tableKey side.sinkKey? := Rung.fetch_trigger .place side
      have hsinks : Snapshot.sinks m.snapshot side.sinkKey? =
          decide (side = .target ∧ Mapping.isSingleSink m = true) := by
        cases side with
        | source => simp [Side.sinkKey?, Snapshot.sinks]
        | target =>
          simp [Side.sinkKey?, Snapshot.sinks, Snapshot.get_snapshot, Mapping.isSingleSink]
      rw [hfetch, Fetch.run_tables, Snapshot.get_snapshot, htrue, hsinks, Rung.choicesFrom]
      by_cases hsink : side = .target ∧ Mapping.isSingleSink m = true
      · rw [if_pos hsink, if_neg (by simp [hsink])]
        rfl
      · rw [if_neg hsink, decide_eq_false hsink]
        cases catalog.tables (.text (m.get side.instanceKey).plain) <;> rfl

end SyncForm
