import SyncForm.Proofs.Answer

/-!
# Completions of the task form

`Template.complete_cases` says once how a lookup of the task form can end, and
`Template.complete_frame` what every such end leaves as it was: the generations, the other lookups
and all values but the lists of columns and partitions. Both hold for any form that keeps to the
lists of columns when it reacts to a written key (`Reaction.ListsOnly`).
-/

namespace SyncForm

/-- A form changes the lists of columns at most, and drops no key. -/
structure Reaction.ListsOnly (react : Reaction) : Prop where
  spares : ∀ key, (∀ side : Side, key ≠ side.key) → react.Spares key
  keeps : react.Keeps

/-- A form that leaves its model alone does so. -/
theorem Reaction.none_listsOnly : Reaction.none.ListsOnly :=
  ⟨fun key _ => Reaction.none_spares key, fun _ _ => .refl _⟩

/-- A key that holds neither columns nor partitions. -/
def Unlisted (key : String) : Prop :=
  ∀ side : Side, key ≠ side.key ∧ key ≠ side.partitionsKey

/-- The keys of the chains hold neither columns nor partitions. -/
theorem Rung.unlisted (rung : Rung) (side : Side) : Unlisted (rung.key side) := by
  intro side'
  cases side <;> cases side' <;> cases rung <;> decide

/-- The partitions are not among the columns. -/
theorem Side.partitionsKey_ne_key (side side' : Side) : side.partitionsKey ≠ side'.key := by
  cases side <;> cases side' <;> decide

/-- A lookup comes to a result only where a catalog answers it. -/
theorem Ending.answer_eq_some {ending : Ending} {l : Lookup} {result : LookupResult}
    (h : ending.answer l = .ok (some result)) :
    ∃ catalog, ending = .answered catalog ∧ l.fetch.run l.snapshot catalog = .ok (some result) := by
  cases ending with
  | answered catalog => exact ⟨catalog, rfl, h⟩
  | failed fault => cases h

namespace Plan

variable (plan : Plan)

/-- The columns and partitions of a table written back and announced. -/
def bring (r : Resolver) (side : Side) (t : TableColumns) : Resolver :=
  let columns := r.model.setLookup side.key (.list t.records)
  let model := columns.setLookup side.partitionsKey (.list (t.placeholders.map .text))
  plan.propagate (plan.propagate { r with model } side.key) side.partitionsKey

/-- Writing the result of a table back brings its columns and partitions. -/
theorem apply_tableResult (r : Resolver) (side : Side) (t : TableColumns) :
    plan.apply r (tableResult side t) = (plan.bring r side t, .ok ()) :=
  rfl

/-- Bringing columns and partitions leaves all other keys that the form spares. -/
theorem find?_bring {key : String} (h : plan.react.Spares key) (r : Resolver) (side : Side)
    (t : TableColumns) (hcolumns : key ≠ side.key) (hpartitions : key ≠ side.partitionsKey) :
    (plan.bring r side t).model.find? key = r.model.find? key := by
  rw [bring, plan.find?_propagate h, plan.find?_propagate h]
  simp only [Model.setLookup, Model.find?_write, if_neg hcolumns.symm, if_neg hpartitions.symm]

/-- Bringing columns and partitions leaves the value of every other key that the form spares. -/
theorem value?_bring {key : String} (h : plan.react.Spares key) (r : Resolver) (side : Side)
    (t : TableColumns) (hcolumns : key ≠ side.key) (hpartitions : key ≠ side.partitionsKey) :
    (plan.bring r side t).model.value? key = r.model.value? key :=
  Model.value?_congr (plan.find?_bring h r side t hcolumns hpartitions)

/-- Bringing columns and partitions writes the partitions, which come last. -/
theorem value?_bring_partitions {side : Side} (h : plan.react.Spares side.partitionsKey)
    (r : Resolver) (t : TableColumns) :
    (plan.bring r side t).model.value? side.partitionsKey =
      some (.list (t.placeholders.map .text)) := by
  rw [bring, plan.value?_propagate h, plan.value?_propagate h]
  exact (Model.value?_setLookup ..).trans (if_pos rfl)

/-- Bringing columns and partitions drops no key. -/
theorem sub_bring (h : plan.react.Keeps) (r : Resolver) (side : Side) (t : TableColumns) :
    r.model.Sub (plan.bring r side t).model := by
  have hwritten : r.model.Sub ((r.model.setLookup side.key (.list t.records)).setLookup
      side.partitionsKey (.list (t.placeholders.map .text))) :=
    ((Model.Sub.refl _).write side.key _).write side.partitionsKey _
  exact (hwritten.trans (h side.key _)).trans (h side.partitionsKey _)

/-- Bringing columns and partitions leaves the choices of fields without a rule. -/
theorem choices?_bring {field : String} (h : plan.RuleFree field) (r : Resolver) (side : Side)
    (t : TableColumns) : (plan.bring r side t).choices? field = r.choices? field := by
  rw [bring, plan.choices?_propagate h, plan.choices?_propagate h]
  rfl

end Plan

namespace Template

variable (disabled : List String) (react : Reaction)

/-- The chains have no rules for their choices. -/
theorem ruleFree_key (side : Side) (rung : Rung) :
    (plan disabled react).RuleFree (rung.key side) :=
  ruleFree disabled react (by cases side <;> cases rung <;> decide)

/-- How a lookup of the task form can end: it no longer counts, it failed, it had nothing to fetch,
or what it brings is offered by a field or written to the lists of its side. -/
inductive Completes (r : Resolver) (l : Lookup) (ending : Ending) :
    Resolver × Except Fault LookupOutcome → Prop
  | stale (hstale : r.isStale l = true) (event : Event) :
      Completes r l ending ((r.without l).log event,
        .ok { trigger := l.ticket.trigger, value := l.ticket.value, status := .discarded })
  | failed (hfresh : r.isStale l = false) (cause : Fault) (hanswer : ending.answer l = .error cause) :
      Completes r l ending
        ((Plan.fail (r.without l) l cause).1, .ok (Plan.fail (r.without l) l cause).2)
  | skipped (hfresh : r.isStale l = false) (hanswer : ending.answer l = .ok none) :
      Completes r l ending (r.without l,
        .ok { trigger := l.ticket.trigger, value := l.ticket.value, status := .skipped })
  | offered (hfresh : r.isStale l = false) (side : Side) (rung : Rung) (choices : List Choice)
      (hfills : l.Fills side rung)
      (hanswer : ending.answer l = .ok (some { choices := [(rung.key side, choices)] })) :
      Completes r l ending
        (((r.without l).offer (rung.key side) choices).log
            (.applied l.ticket.trigger l.ticket.value),
          .ok { trigger := l.ticket.trigger, value := l.ticket.value, status := .applied })
  | brought (hfresh : r.isStale l = false) (side : Side) (t : TableColumns)
      (hrung : l.OfRung side .table) (hanswer : ending.answer l = .ok (some (tableResult side t))) :
      Completes r l ending
        (((plan disabled react).bring (r.without l) side t).log
            (.applied l.ticket.trigger l.ticket.value),
          .ok { trigger := l.ticket.trigger, value := l.ticket.value, status := .applied })

/-- A lookup of the task form ends in one of these ways. -/
theorem complete_cases {r : Resolver} {l : Lookup} (hl : l.Known)
    (hoffers : ∀ side rung, Assoc.holds r.facets (Rung.key rung side) = true) (ending : Ending) :
    Completes disabled react r l ending
      ((plan disabled react).complete r l (ending.answer l)) := by
  cases hstale : r.isStale l with
  | true =>
    obtain ⟨event, hdone⟩ := (plan disabled react).complete_of_stale hstale (ending.answer l)
    rw [hdone]
    exact .stale hstale event
  | false =>
    cases hanswer : ending.answer l with
    | error cause =>
      rw [Plan.complete_of_error _ hstale]
      exact .failed hstale cause hanswer
    | ok result? =>
      cases result? with
      | none =>
        rw [Plan.complete_of_none _ hstale]
        exact .skipped hstale hanswer
      | some result =>
        obtain ⟨catalog, -, hrun⟩ := Ending.answer_eq_some hanswer
        rcases Lookup.shape hl hrun with ⟨side, rung, choices, hfills, rfl⟩ | ⟨side, t, hrung, rfl⟩
        · have happly := Plan.apply_choices (plan disabled react) (r := r.without l)
            (hoffers side rung) choices
          rw [Plan.complete_of_some _ hstale happly]
          exact .offered hstale side rung choices hfills hanswer
        · have happly := Plan.apply_tableResult (plan disabled react) (r.without l) side t
          rw [Plan.complete_of_some _ hstale happly]
          exact .brought hstale side t hrung hanswer

/-- What a resolver keeps when it completes a lookup. -/
structure Frame (r : Resolver) (l : Lookup) (r' : Resolver) : Prop where
  generations : r'.generations = r.generations
  inFlight : r'.inFlight = (r.without l).inFlight
  issued : r'.issued = r.issued
  ready : r'.ready = r.ready
  values : ∀ key, Unlisted key → r'.model.value? key = r.model.value? key
  held : r.model.Sub r'.model
  offers : ∀ side rung, (r'.choices? (Rung.key rung side)).isSome =
    (r.choices? (Rung.key rung side)).isSome

/-- The end of a lookup of the task form keeps all that a frame names. -/
theorem complete_frame (hreact : react.ListsOnly) {r : Resolver} {l : Lookup} (hl : l.Known)
    (hoffers : ∀ side rung, Assoc.holds r.facets (Rung.key rung side) = true) (ending : Ending) :
    Frame r l ((plan disabled react).complete r l (ending.answer l)).1 := by
  have hends := complete_cases disabled react hl hoffers ending
  generalize (plan disabled react).complete r l (ending.answer l) = done at hends ⊢
  cases hends with
  | stale _ event => exact ⟨rfl, rfl, rfl, rfl, fun _ _ => rfl, .refl _, fun _ _ => rfl⟩
  | failed _ cause _ =>
    exact ⟨rfl, rfl, rfl, rfl, fun key _ => Plan.value?_fail (r.without l) l cause key,
      (Model.Sub.refl _).adjust _ _, fun _ _ => rfl⟩
  | skipped => exact ⟨rfl, rfl, rfl, rfl, fun _ _ => rfl, .refl _, fun _ _ => rfl⟩
  | offered _ side rung choices _ _ =>
    refine ⟨rfl, rfl, rfl, rfl, fun _ _ => rfl, .refl _, fun side' rung' => ?_⟩
    have hoffer := Resolver.choices?_offer (r.without l) (rung.key side) choices (rung'.key side')
    refine (congrArg Option.isSome hoffer).trans ?_
    split
    · exact Option.isSome_map
    · rfl
  | brought _ side t _ _ =>
    refine ⟨rfl, rfl, rfl, rfl, fun key hkey => ?_,
      (plan disabled react).sub_bring hreact.keeps (r.without l) side t, fun side' rung' => ?_⟩
    · exact (plan disabled react).value?_bring (hreact.spares key fun side => (hkey side).1)
        (r.without l) side t (hkey side).1 (hkey side).2
    · have hchoices := (plan disabled react).choices?_bring (ruleFree_key disabled react side' rung')
        (r.without l) side t
      exact congrArg Option.isSome hchoices

end Template

end SyncForm
