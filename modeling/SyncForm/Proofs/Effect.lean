import SyncForm.Resolver.Basic

/-!
# What the operations of a resolver change

A resolver is looked at through four views: the entries of its model (`Model.find?`), the choices
that its fields offer (`Resolver.choices?`), the generations of its lookups
(`Resolver.generation?`) and the lookups in flight. This module says of each operation what it does
to each view. A cascade is run step by step, and its effect on a view depends only on which of its
steps concern the key that is looked at (`find?_runSteps`, `choices?_runSteps`,
`generation?_runSteps`).
-/

namespace SyncForm

namespace Assoc

/-- Rewriting every entry in view of its key rewrites what a key holds. -/
theorem valueOf?_map {α β : Type} (a : Assoc α) (g : String → α → β) (key : String) :
    valueOf? (a.map fun kv => (kv.1, g kv.1 kv.2)) key = (valueOf? a key).map (g key) := by
  induction a with
  | nil => rfl
  | cons kv rest ih =>
    simp only [List.map_cons, valueOf?]
    split
    · next h => subst h; rfl
    · exact ih

end Assoc

/-- A snapshot shows the values of the model. -/
theorem Model.valueOf?_snapshot (m : Model) (key : String) :
    Assoc.valueOf? m.snapshot key = m.value? key :=
  Assoc.valueOf?_map m.entries (fun _ e => e.value) key

/-- Every key that a model holds another one holds as well. -/
def Model.Sub (m m' : Model) : Prop :=
  ∀ key, (m.value? key).isSome → (m'.value? key).isSome

namespace Model.Sub

variable {m m' m'' : Model}

/-- A model holds its own keys. -/
theorem refl (m : Model) : m.Sub m :=
  fun _ => id

/-- A model with the same values holds the same keys. -/
theorem of_values (h : ∀ key, m'.value? key = m.value? key) : m.Sub m' :=
  fun key hkey => by rwa [h key]

/-- A key that a model holds stays held. -/
theorem holds (h : m.Sub m') {key : String} (hkey : m.holds key = true) : m'.holds key = true := by
  have hheld := h key (by rwa [isSome_value?])
  rwa [isSome_value?] at hheld

/-- What a model holds stays held over two stretches. -/
theorem trans (h : m.Sub m') (h' : m'.Sub m'') : m.Sub m'' :=
  fun key hkey => h' key (h key hkey)

/-- Writing a key drops none. -/
theorem write (h : m.Sub m') (key : String) (f : Entry → Entry) : m.Sub (m'.write key f) := by
  refine h.trans fun other hother => ?_
  rw [value?, find?_write]
  split
  · rfl
  · exact hother

/-- Resetting a key drops none. -/
theorem clear (h : m.Sub m') (key : String) (value : Value) : m.Sub (m'.clear key value) := by
  refine h.trans fun other hother => ?_
  rw [value?_clear]
  split
  · rfl
  · exact hother

/-- Changing an entry drops no key. -/
theorem adjust (h : m.Sub m') (key : String) (f : Entry → Entry) : m.Sub (m'.adjust key f) := by
  refine h.trans fun other hother => ?_
  rcases m'.value?_adjust_cases key f other with hsame | ⟨e, -, hvalue⟩
  · rwa [hsame]
  · rw [hvalue]
    rfl

end Model.Sub

namespace Resolver

/-- The choices that a field offers, if it has a state. -/
def choices? (r : Resolver) (field : String) : Option (List Choice) :=
  (Assoc.valueOf? r.facets field).map (·.choices)

/-- The generation of a lookup, if the table has that lookup. -/
def generation? (r : Resolver) (name : String) : Option Nat :=
  Assoc.valueOf? r.generations name

/-- The resolver when a lookup is no longer in flight. -/
def without (r : Resolver) (l : Lookup) : Resolver :=
  { r with inFlight := r.inFlight.filter (·.ticket.number != l.ticket.number) }

/-- The counter of one lookup moves on. -/
theorem generation?_supersede (r : Resolver) (key name : String) :
    (r.supersede key).generation? name =
      if key = name then (r.generation? name).map (· + 1) else r.generation? name :=
  Assoc.valueOf?_adjust ..

/-- The choices of one field are replaced. -/
theorem choices?_offer (r : Resolver) (field : String) (choices : List Choice) (other : String) :
    (r.offer field choices).choices? other =
      if field = other then (r.choices? other).map fun _ => choices else r.choices? other := by
  simp only [choices?, offer, Assoc.valueOf?_adjust]
  split
  · simp [Function.comp_def]
  · rfl

end Resolver

namespace CascadeStep

/-- Whether a step empties the choices of a field. -/
def empties (field : String) : CascadeStep → Bool
  | empty f => f == field
  | _ => false

/-- Whether a step resets a key. -/
def resets (key : String) : CascadeStep → Bool
  | reset k => k == key
  | _ => false

/-- Whether a step supersedes the lookups of a name. -/
def supersedes (name : String) : CascadeStep → Bool
  | supersede k => k == name
  | _ => false

end CascadeStep

/-- A reaction never writes a key. -/
def Reaction.Spares (react : Reaction) (key : String) : Prop :=
  ∀ written m, (react written m).1.find? key = m.find? key

/-- A reaction drops no key. -/
def Reaction.Keeps (react : Reaction) : Prop :=
  ∀ written (m : Model), m.Sub (react written m).1

/-- A form that leaves its model alone spares every key. -/
theorem Reaction.none_spares (key : String) : Reaction.none.Spares key :=
  fun _ _ => rfl

namespace Plan

variable (plan : Plan)

/-- A field is given its choices by lookups or by its table alone, not by a rule. -/
def RuleFree (field : String) : Prop :=
  ∀ d, plan.find? field = some d → d.choiceRule = none

/-! ## Writing and announcing -/

/-- Announcing a key leaves the entry of a key that the form spares. -/
theorem find?_propagate {key : String} (h : plan.react.Spares key) (r : Resolver)
    (written : String) :
    (plan.propagate r written).model.find? key = r.model.find? key :=
  h written r.model

/-- Announcing a key leaves the value of a key that the form spares. -/
theorem value?_propagate {key : String} (h : plan.react.Spares key) (r : Resolver)
    (written : String) :
    (plan.propagate r written).model.value? key = r.model.value? key :=
  Model.value?_congr (plan.find?_propagate h r written)

/-- Announcing a key evaluates every field on the model that the form makes of it. -/
theorem valueOf?_propagate (r : Resolver) (key field : String) :
    Assoc.valueOf? (plan.propagate r key).facets field =
      (Assoc.valueOf? r.facets field).map
        (plan.refreshed (plan.announce r key).model key field) :=
  Assoc.valueOf?_map r.facets
    (fun f facet => plan.refreshed (plan.announce r key).model key f facet) field

/-- A field evaluated anew keeps its choices unless it depends on the key and a rule gives them. -/
theorem choices_refreshed {key field : String}
    (h : ∀ d, plan.find? field = some d → d.dependsOn.contains key = true → d.choiceRule = none)
    (m : Model) (facet : Facet) :
    (plan.refreshed m key field facet).choices = facet.choices := by
  unfold refreshed
  split
  · next d hd =>
    split
    · next hdepends => simp [Descriptor.refresh, h d hd hdepends]
    · rfl
  · rfl

/-- Announcing a key leaves the choices of a field unless it depends on the key and a rule gives
them. -/
theorem choices?_propagate_plain {key field : String}
    (h : ∀ d, plan.find? field = some d → d.dependsOn.contains key = true → d.choiceRule = none)
    (r : Resolver) : (plan.propagate r key).choices? field = r.choices? field := by
  simp [Resolver.choices?, plan.valueOf?_propagate, Function.comp_def, plan.choices_refreshed h]

/-- Announcing a key leaves the choices of a field without a rule. -/
theorem choices?_propagate {field : String} (h : plan.RuleFree field) (r : Resolver)
    (written : String) : (plan.propagate r written).choices? field = r.choices? field :=
  plan.choices?_propagate_plain (fun d hd _ => h d hd) r

/-! ## Running a cascade -/

/-- A step of a cascade resets the key it names and leaves all others. -/
theorem find?_runStep {key : String} (h : plan.react.Spares key) (r : Resolver)
    (step : CascadeStep) :
    (plan.runStep r step).model.find? key =
      if step.resets key then some { value := plan.usual key } else r.model.find? key := by
  cases step with
  | empty field => rfl
  | supersede name => rfl
  | reset k =>
    simp only [runStep, plan.find?_propagate h, Model.find?_clear, CascadeStep.resets, beq_iff_eq]
    split
    · next hk => rw [hk]
    · rfl

/-- A step of a cascade empties the choices it names and leaves all others. -/
theorem choices?_runStep {field : String} (h : plan.RuleFree field) (r : Resolver)
    (step : CascadeStep) :
    (plan.runStep r step).choices? field =
      (r.choices? field).map fun cs => if step.empties field then [] else cs := by
  cases step with
  | empty f =>
    simp only [runStep, Resolver.choices?_offer, CascadeStep.empties, beq_iff_eq]
    split <;> simp_all
  | supersede name => exact (Option.map_id' (x := r.choices? field)).symm
  | reset k =>
    rw [runStep, plan.choices?_propagate h]
    exact (Option.map_id' (x := r.choices? field)).symm

/-- A step of a cascade moves on the generation it names and leaves all others. -/
theorem generation?_runStep (name : String) (r : Resolver) (step : CascadeStep) :
    (plan.runStep r step).generation? name =
      (r.generation? name).map (· + if step.supersedes name then 1 else 0) := by
  cases step with
  | empty f => exact (Option.map_id' (x := r.generation? name)).symm
  | reset k => exact (Option.map_id' (x := r.generation? name)).symm
  | supersede k =>
    simp only [runStep, Resolver.generation?_supersede, CascadeStep.supersedes, beq_iff_eq]
    split <;> simp

/-- A cascade resets the keys it names and leaves all others. -/
theorem find?_runSteps {key : String} (h : plan.react.Spares key) (steps : List CascadeStep)
    (r : Resolver) :
    (steps.foldl plan.runStep r).model.find? key =
      if steps.any (·.resets key) then some { value := plan.usual key }
      else r.model.find? key := by
  induction steps generalizing r with
  | nil => rfl
  | cons step rest ih =>
    rw [List.foldl_cons, ih, List.any_cons, plan.find?_runStep h]
    cases step.resets key <;> simp

/-- A cascade drops no key. -/
theorem sub_runSteps (h : plan.react.Keeps) (steps : List CascadeStep) (r : Resolver) :
    r.model.Sub (steps.foldl plan.runStep r).model := by
  induction steps generalizing r with
  | nil => exact .refl _
  | cons step rest ih =>
    refine Model.Sub.trans ?_ (ih (plan.runStep r step))
    cases step with
    | empty field => exact .refl _
    | supersede name => exact .refl _
    | reset key => exact ((Model.Sub.refl _).clear key _).trans (h key _)

/-- A cascade empties the choices it names and leaves all others. -/
theorem choices?_runSteps {field : String} (h : plan.RuleFree field) (steps : List CascadeStep)
    (r : Resolver) :
    (steps.foldl plan.runStep r).choices? field =
      (r.choices? field).map fun cs => if steps.any (·.empties field) then [] else cs := by
  induction steps generalizing r with
  | nil => simp
  | cons step rest ih =>
    rw [List.foldl_cons, ih, List.any_cons, plan.choices?_runStep h, Option.map_map]
    cases step.empties field <;> simp [Function.comp_def]

/-- A cascade moves on the generations it names and leaves all others. -/
theorem generation?_runSteps (name : String) (steps : List CascadeStep) (r : Resolver) :
    (steps.foldl plan.runStep r).generation? name =
      (r.generation? name).map (· + steps.countP (·.supersedes name)) := by
  induction steps generalizing r with
  | nil => simp
  | cons step rest ih =>
    rw [List.foldl_cons, ih, List.countP_cons, plan.generation?_runStep, Option.map_map]
    congr 1
    funext n
    simp only [Function.comp_apply]
    omega

/-- A cascade neither issues nor completes a lookup. -/
theorem inFlight_runSteps (steps : List CascadeStep) (r : Resolver) :
    (steps.foldl plan.runStep r).inFlight = r.inFlight ∧
      (steps.foldl plan.runStep r).issued = r.issued ∧
      (steps.foldl plan.runStep r).ready = r.ready := by
  induction steps generalizing r with
  | nil => exact ⟨rfl, rfl, rfl⟩
  | cons step rest ih =>
    have hstep : (plan.runStep r step).inFlight = r.inFlight ∧
        (plan.runStep r step).issued = r.issued ∧ (plan.runStep r step).ready = r.ready := by
      cases step <;> exact ⟨rfl, rfl, rfl⟩
    obtain ⟨h1, h2, h3⟩ := ih (plan.runStep r step)
    exact ⟨h1.trans hstep.1, h2.trans hstep.2.1, h3.trans hstep.2.2⟩

end Plan

end SyncForm
