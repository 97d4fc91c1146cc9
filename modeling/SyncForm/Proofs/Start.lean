import SyncForm.Proofs.InFlight

/-!
# The start of a resolver

Making a resolver ready succeeds where every field declares what it reads and names only what is
there (`Plan.setUp_of_declared`). The task form does (`Template.setUp_plan`), whatever model it is
started on: the model keeps its entries and is filled up with defaults, no field of a chain has
choices yet, all counters stand at zero and no lookup is in flight (`Template.tracked_begun`).
-/

namespace SyncForm

/-- Actions that all succeed succeed one after the other. -/
theorem forM_eq_ok {ε α : Type} {f : α → Except ε Unit} {xs : List α}
    (h : ∀ x ∈ xs, f x = .ok ()) : xs.forM f = .ok () := by
  induction xs with
  | nil => rfl
  | cons x rest ih =>
    have hrest := ih fun y hy => h y (.tail _ hy)
    refine (congrArg (· >>= fun _ => rest.forM f) (h x (.head _))).trans ?_
    exact hrest

/-- Whether a field declares what it reads, and all it names is among given fields and keys. -/
def Descriptor.isDeclared (d : Descriptor) (fields owned : List String) : Bool :=
  (d.group.isNone || Keys.layout.all d.dependsOn.contains) &&
    d.choiceRule.all (fun rule => rule.reads.all d.dependsOn.contains) &&
    d.dependsOn.all owned.contains &&
    d.trigger.all (fun t => t.produces.all owned.contains && t.choiceKeys.all fields.contains)

namespace Descriptor

/-- Nothing is missing from what a list contains throughout. -/
theorem demand_of_all (d : Descriptor) (message : String) {keys : List String}
    {p : String → Bool} (h : keys.all p = true) :
    d.demand message (keys.filter (!p ·)) = .ok () := by
  have hnil : keys.filter (!p ·) = [] := by
    simpa [List.filter_eq_nil_iff] using h
  rw [hnil]
  rfl

/-- Nothing that a list does not contain is found among what it contains throughout. -/
theorem find?_of_all {keys : List String} {p : String → Bool} (h : keys.all p = true) :
    keys.find? (!p ·) = none := by
  simpa [List.find?_eq_none] using h

/-- A field that declares what it reads passes the check of its declarations. -/
theorem checkDeclarations_eq_ok {d : Descriptor} {fields owned : List String} {m : Model}
    (h : d.isDeclared fields owned = true)
    (hm : ∀ key, owned.contains key = true → m.holds key = true) :
    d.checkDeclarations fields m = .ok () := by
  simp only [isDeclared, Bool.and_eq_true, Bool.or_eq_true, Option.all_eq_true] at h
  obtain ⟨⟨⟨hgroup, hreads⟩, hkeys⟩, hnames⟩ := h
  have hheld {keys : List String} (hkeys : keys.all owned.contains = true) :
      keys.all m.holds = true :=
    List.all_eq_true.2 fun key hkey => hm key (List.all_eq_true.1 hkeys key hkey)
  have hlayout : d.group.isSome = true →
      d.demand "Laid-out field does not declare its layout inputs"
        (Keys.layout.filter (!d.dependsOn.contains ·)) = .ok () :=
    fun hsome => d.demand_of_all _ (hgroup.resolve_left fun hnone => by
      rw [Option.isNone_iff_eq_none.1 hnone] at hsome; cases hsome)
  have hrule : ∀ rule, d.choiceRule = some rule →
      d.demand "Options rule reads undeclared keys"
        (rule.reads.filter (!d.dependsOn.contains ·)) = .ok () :=
    fun rule hrule => d.demand_of_all _ (hreads rule hrule)
  have hdepends : d.demand "Field depends on keys missing from the model"
      (d.dependsOn.filter (!m.holds ·)) = .ok () :=
    d.demand_of_all _ (hheld hkeys)
  have hproduces : ∀ trigger, d.trigger = some trigger →
      trigger.produces.find? (!m.holds ·) = none :=
    fun trigger htrigger => find?_of_all (hheld (hnames trigger htrigger).1)
  have hchoices : ∀ trigger, d.trigger = some trigger →
      trigger.choiceKeys.find? (!fields.contains ·) = none :=
    fun trigger htrigger => find?_of_all (hnames trigger htrigger).2
  unfold checkDeclarations
  cases hg : d.group.isSome <;> cases hr : d.choiceRule <;> cases ht : d.trigger <;>
    simp [hg, hr, ht, hlayout, hrule, hdepends, hproduces, hchoices, bind, Except.bind, pure,
      Except.pure, -List.contains_eq_mem]

end Descriptor

/-- What the entries of a table say about a key. -/
theorem Assoc.valueOf?_of_find? {α β : Type} (xs : List α) (name : α → String) (f : α → β)
    (key : String) :
    Assoc.valueOf? (xs.map fun x => (name x, f x)) key = (xs.find? (name · == key)).map f := by
  induction xs with
  | nil => rfl
  | cons x rest ih =>
    simp only [List.map_cons, Assoc.valueOf?, List.find?_cons]
    by_cases hx : name x = key
    · simp [hx]
    · rw [if_neg hx, ih, beq_eq_false_iff_ne.2 hx]

namespace Plan

variable (plan : Plan)

/-- A model filled up with the defaults of some keys. -/
def seed (m : Model) (keys : List String) : Model :=
  keys.foldl (fun m key => m.ensure key (plan.usual key)) m

/-- Filling up keeps what is there and adds the defaults of the other keys. -/
theorem find?_seed (m : Model) (keys : List String) (key : String) :
    (plan.seed m keys).find? key =
      (m.find? key).or (if keys.contains key then some { value := plan.usual key } else none) := by
  induction keys generalizing m with
  | nil => simp [seed]
  | cons k rest ih =>
    refine (ih (m.ensure k (plan.usual k))).trans ?_
    rw [Model.find?_ensure]
    by_cases hk : k = key
    · subst hk
      cases m.find? k <;> simp
    · simp [hk, Ne.symm hk]

/-- Filling up leaves the keys filled up. -/
theorem holds_seed (m : Model) {keys : List String} {key : String}
    (h : keys.contains key = true) : (plan.seed m keys).holds key = true := by
  have hfind : ((plan.seed m keys).find? key).isSome = true := by
    rw [find?_seed, if_pos h]
    simp
  exact hfind

/-- The resolver of a plan on a model, made ready. -/
def begun (m : Model) : Resolver :=
  let model := plan.seed m plan.ownedKeys
  ({ model
     facets := plan.descriptors.map fun d => (d.key, d.initialFacet model)
     generations := plan.generations
     ready := true } : Resolver).log (.initialized plan.descriptors.length)

/-- Making a resolver ready succeeds where every field declares what it reads. -/
theorem setUp_of_declared
    (h : ∀ d ∈ plan.descriptors,
      d.isDeclared (plan.descriptors.map (·.key)) plan.ownedKeys = true)
    (m : Model) : plan.setUp (plan.start m) = (plan.begun m, .ok ()) := by
  have hchecks : ∀ d ∈ plan.descriptors, d.checkDeclarations (plan.descriptors.map (·.key))
      (plan.seed m plan.ownedKeys) = .ok () := fun d hd =>
    Descriptor.checkDeclarations_eq_ok (h d hd) fun key hkey => plan.holds_seed m hkey
  have hall := forM_eq_ok hchecks
  unfold setUp
  unfold seed at hall
  dsimp only [start]
  rw [hall]
  rfl

/-- The entry of a key at the start. -/
theorem find?_begun (m : Model) (key : String) :
    (plan.begun m).model.find? key = (m.find? key).or
      (if plan.ownedKeys.contains key then some { value := plan.usual key } else none) :=
  plan.find?_seed m plan.ownedKeys key

/-- The value of a key at the start. -/
theorem value?_begun (m : Model) (key : String) :
    (plan.begun m).model.value? key = (m.value? key).or
      (if plan.ownedKeys.contains key then some (plan.usual key) else none) := by
  rw [Model.value?, find?_begun, Option.map_or]
  split <;> rfl

/-- What a model holds it holds at the start. -/
theorem value?_begun_of_given {m : Model} {key : String} {value : Value}
    (h : m.value? key = some value) : (plan.begun m).model.value? key = some value := by
  rw [value?_begun, h]
  rfl

/-- The keys of the fields are held at the start. -/
theorem holds_begun (m : Model) {key : String} (h : plan.ownedKeys.contains key = true) :
    (plan.begun m).model.holds key = true :=
  plan.holds_seed m h

/-- The state of a field at the start. -/
theorem valueOf?_begun (m : Model) (field : String) :
    Assoc.valueOf? (plan.begun m).facets field =
      (plan.find? field).map (·.initialFacet (plan.begun m).model) :=
  Assoc.valueOf?_of_find? plan.descriptors (·.key) (·.initialFacet (plan.begun m).model) field

end Plan

namespace Template

variable (disabled : List String) (react : Reaction) (m : Model)

/-- The keys of the task form do not depend on the types that are not offered. -/
theorem ownedKeys_plan :
    (plan disabled react).ownedKeys = (plan [] Reaction.none).ownedKeys :=
  rfl

/-- The fields of the task form declare what they read. -/
theorem isDeclared_plan {d : Descriptor} (hd : d ∈ (plan disabled react).descriptors) :
    d.isDeclared ((plan disabled react).descriptors.map (·.key)) (plan disabled react).ownedKeys =
      true := by
  have hall : (plan disabled react).descriptors.all (·.isDeclared
      ((plan disabled react).descriptors.map (·.key)) (plan disabled react).ownedKeys) =
        (plan [] Reaction.none).descriptors.all (·.isDeclared
          ((plan [] Reaction.none).descriptors.map (·.key)) (plan [] Reaction.none).ownedKeys) :=
    rfl
  have hclosed : (plan [] Reaction.none).descriptors.all (·.isDeclared
      ((plan [] Reaction.none).descriptors.map (·.key)) (plan [] Reaction.none).ownedKeys) =
        true := by
    decide +kernel
  exact List.all_eq_true.1 (hall.trans hclosed) d hd

/-- The task form can be made ready on any model. -/
theorem setUp_plan :
    (plan disabled react).setUp ((plan disabled react).start m) =
      ((plan disabled react).begun m, .ok ()) :=
  (plan disabled react).setUp_of_declared (fun _ hd => isDeclared_plan disabled react hd) m

/-- No field of a chain has choices at the start. -/
theorem choices?_begun (side : Side) (rung : Rung) :
    ((plan disabled react).begun m).choices? (rung.key side) = some [] := by
  have hfind : ∃ d, (plan disabled react).find? (rung.key side) = some d ∧
      d.choiceRule = none ∧ d.choices = [] := by
    cases side <;> cases rung <;> exact ⟨_, rfl, rfl, rfl⟩
  obtain ⟨d, hd, hrule, hchoices⟩ := hfind
  rw [Resolver.choices?, Plan.valueOf?_begun, hd]
  simp only [Option.map_some, Descriptor.initialFacet, Descriptor.initialChoices, hrule, hchoices]

/-- The counters of the chains and of the loaders stand at zero at the start. -/
theorem generation?_begun (side : Side) :
    (∀ rung, ((plan disabled react).begun m).generation? (Rung.key rung side) = some 0) ∧
      ((plan disabled react).begun m).generation? (loaderName side.typeKey) = some 0 := by
  refine ⟨fun rung => ?_, ?_⟩
  · cases side <;> cases rung <;> rfl
  · cases side <;> rfl

/-- At the start the lookups in flight are accounted for: there are none. -/
theorem tracked_begun : ((plan disabled react).begun m).Tracked where
  ready := rfl
  held side rung := by
    have howned : (plan disabled react).ownedKeys.contains (rung.key side) = true := by
      rw [ownedKeys_plan]
      cases side <;> cases rung <;> decide +kernel
    have hheld := (plan disabled react).holds_begun m howned
    exact (Option.isSome_map ..).trans hheld
  offers side rung := by rw [choices?_begun]; rfl
  counted side rung := by rw [(generation?_begun disabled react m side).1]; rfl
  loaders side := by rw [(generation?_begun disabled react m side).2]; rfl
  distinct := .nil
  known _ hl := absurd hl List.not_mem_nil
  numbered _ hl := absurd hl List.not_mem_nil
  dated _ hl := absurd hl List.not_mem_nil
  current _ hl := absurd hl List.not_mem_nil

end Template

end SyncForm
