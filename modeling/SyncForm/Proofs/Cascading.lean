import Mathlib.Logic.Relation
import SyncForm.Proofs.Effect

/-!
# Cascades as searches

A trigger produces keys, some of which are triggers themselves; `Plan.Produces` is that graph, which
may have diamonds and cycles. A cascade is a depth-first search of it. What a search from some
stack resets is new (`Plan.nodup_resets`), contains the stack and is closed under production, the
keys seen before apart (`Plan.closed_cascadeFrom`), and is reachable from the stack
(`Plan.reached_cascadeFrom`). So the cascade of a trigger resets exactly the other keys
that are reachable from it (`Plan.mem_resets_cascade`), each once; it supersedes the triggers among
them and empties the choices that these and the trigger itself fill.
-/

namespace SyncForm

/-- The key that a step of a cascade resets. -/
def CascadeStep.reset? : CascadeStep → Option String
  | reset key => some key
  | _ => none

/-- The keys that the steps of a cascade reset, in order. -/
def resetKeys (steps : List CascadeStep) : List String :=
  steps.filterMap CascadeStep.reset?

/-- Emptying choices resets nothing. -/
theorem resetKeys_empties (fields : List String) (steps : List CascadeStep) :
    resetKeys (fields.map .empty ++ steps) = resetKeys steps := by
  induction fields with
  | nil => rfl
  | cons field rest ih => exact ih

/-- A step that resets a key is one of those that name it. -/
theorem mem_resetKeys {steps : List CascadeStep} {key : String} :
    key ∈ resetKeys steps ↔ steps.any (·.resets key) = true := by
  rw [resetKeys, List.mem_filterMap, List.any_eq_true]
  constructor
  · rintro ⟨step, hstep, hkey⟩
    cases step with
    | reset k =>
      obtain rfl : k = key := Option.some.inj hkey
      exact ⟨_, hstep, beq_self_eq_true k⟩
    | empty field => cases hkey
    | supersede name => cases hkey
  · rintro ⟨step, hstep, hkey⟩
    cases step with
    | reset k =>
      obtain rfl : k = key := by simpa [CascadeStep.resets] using hkey
      exact ⟨_, hstep, rfl⟩
    | empty field => cases hkey
    | supersede name => cases hkey

namespace Plan

variable (plan : Plan)

/-- A trigger produces a key: the key is reset when the trigger changes. -/
def Produces (upper lower : String) : Prop :=
  ∃ t, plan.trigger? upper = some t ∧ lower ∈ t.produces

/-! ## One step of the search -/

section

variable (seen : List String) (stack : List String)

/-- A cascade passes over a key that it has reset before. -/
theorem cascadeFrom_seen {key : String} (h : seen.contains key = true) :
    plan.cascadeFrom seen (key :: stack) = plan.cascadeFrom seen stack := by
  rw [cascadeFrom, dif_pos h]

/-- A cascade resets a key that is no trigger and goes on. -/
theorem cascadeFrom_plain {key : String} (h : seen.contains key = false)
    (htrigger : plan.trigger? key = none) :
    plan.cascadeFrom seen (key :: stack) = .reset key :: plan.cascadeFrom (key :: seen) stack := by
  rw [cascadeFrom, dif_neg (Bool.eq_false_iff.1 h)]
  split
  · rfl
  · next t ht => rw [htrigger] at ht; cases ht

/-- A cascade resets a trigger, supersedes its lookups and goes on with what it produces. -/
theorem cascadeFrom_trigger {key : String} {t : Trigger} (h : seen.contains key = false)
    (htrigger : plan.trigger? key = some t) :
    plan.cascadeFrom seen (key :: stack) =
      .reset key :: .supersede key ::
        (t.choiceKeys.map .empty ++ plan.cascadeFrom (key :: seen) (t.produces ++ stack)) := by
  rw [cascadeFrom, dif_neg (Bool.eq_false_iff.1 h)]
  split
  · next ht => rw [htrigger] at ht; cases ht
  · next t' ht => rw [htrigger] at ht; cases ht; rfl

end

/-- What holds of the empty search, and of a search from some stack as soon as it holds of the search
that its first step leaves, holds of every search. -/
theorem cascadeFrom_induct {P : List String → List String → List CascadeStep → Prop}
    (hnil : ∀ seen, P seen [] [])
    (hseen : ∀ seen key stack, key ∈ seen →
      P seen stack (plan.cascadeFrom seen stack) →
        P seen (key :: stack) (plan.cascadeFrom seen stack))
    (hplain : ∀ seen key stack, key ∉ seen → plan.trigger? key = none →
      P (key :: seen) stack (plan.cascadeFrom (key :: seen) stack) →
        P seen (key :: stack) (.reset key :: plan.cascadeFrom (key :: seen) stack))
    (htrigger : ∀ seen key stack t, key ∉ seen → plan.trigger? key = some t →
      P (key :: seen) (t.produces ++ stack) (plan.cascadeFrom (key :: seen) (t.produces ++ stack)) →
        P seen (key :: stack) (.reset key :: .supersede key ::
          (t.choiceKeys.map .empty ++ plan.cascadeFrom (key :: seen) (t.produces ++ stack))))
    (seen stack : List String) : P seen stack (plan.cascadeFrom seen stack) := by
  induction seen, stack using cascadeFrom.induct plan with
  | case1 seen =>
    rw [cascadeFrom]
    exact hnil seen
  | case2 seen key stack h ih =>
    rw [plan.cascadeFrom_seen seen stack h]
    exact hseen seen key stack (List.contains_iff_mem.1 h) ih
  | case3 seen key stack h hnone ih =>
    have hfresh : seen.contains key = false := Bool.eq_false_iff.2 h
    rw [plan.cascadeFrom_plain seen stack hfresh hnone]
    exact hplain seen key stack (fun hmem => h (List.contains_iff_mem.2 hmem)) hnone ih
  | case4 seen key stack h t hsome ih =>
    have hfresh : seen.contains key = false := Bool.eq_false_iff.2 h
    rw [plan.cascadeFrom_trigger seen stack hfresh hsome]
    exact htrigger seen key stack t (fun hmem => h (List.contains_iff_mem.2 hmem)) hsome ih

/-! ## What a search resets -/

/-- A search resets keys that were not seen before, each of them once. -/
theorem nodup_resets (seen stack : List String) :
    (resetKeys (plan.cascadeFrom seen stack)).Nodup ∧
      ∀ key ∈ resetKeys (plan.cascadeFrom seen stack), key ∉ seen := by
  have hcons : ∀ (seen : List String) (key : String) (resets : List String), key ∉ seen →
      (resets.Nodup ∧ ∀ other ∈ resets, other ∉ key :: seen) →
        ((key :: resets).Nodup ∧ ∀ other ∈ key :: resets, other ∉ seen) := by
    intro seen key resets hkey hrest
    obtain ⟨hnodup, hfresh⟩ := hrest
    refine ⟨List.nodup_cons.2 ⟨fun hmem => hfresh key hmem (.head _), hnodup⟩, ?_⟩
    intro other hother
    rcases List.mem_cons.1 hother with rfl | hmem
    · exact hkey
    · exact fun hseen => hfresh other hmem (.tail _ hseen)
  refine plan.cascadeFrom_induct (P := fun seen _ steps =>
    (resetKeys steps).Nodup ∧ ∀ key ∈ resetKeys steps, key ∉ seen) ?_ ?_ ?_ ?_ seen stack
  · intro seen
    exact ⟨.nil, fun key hkey => absurd hkey List.not_mem_nil⟩
  · intro seen key stack _ ih
    exact ih
  · intro seen key stack hkey _ ih
    exact hcons seen key _ hkey ih
  · intro seen key stack t hkey _ ih
    rw [← resetKeys_empties t.choiceKeys] at ih
    exact hcons seen key _ hkey ih

/-- A search resets all of its stack that was not seen before, and of every trigger that it resets
all that the trigger produces. -/
theorem closed_cascadeFrom (seen stack : List String) :
    (∀ key ∈ stack, key ∈ seen ∨ key ∈ resetKeys (plan.cascadeFrom seen stack)) ∧
      ∀ key ∈ resetKeys (plan.cascadeFrom seen stack), ∀ lower, plan.Produces key lower →
        lower ∈ seen ∨ lower ∈ resetKeys (plan.cascadeFrom seen stack) := by
  -- A key seen in the rest of the search is the key reset first or one seen before.
  have hshift : ∀ {seen : List String} {key other : String} {resets : List String},
      other ∈ key :: seen ∨ other ∈ resets → other ∈ seen ∨ other ∈ key :: resets := by
    intro seen key other resets hother
    rcases hother with hseen | hreset
    · rcases List.mem_cons.1 hseen with rfl | hseen
      · exact .inr (.head _)
      · exact .inl hseen
    · exact .inr (.tail _ hreset)
  refine plan.cascadeFrom_induct (P := fun seen stack steps =>
    (∀ key ∈ stack, key ∈ seen ∨ key ∈ resetKeys steps) ∧
      ∀ key ∈ resetKeys steps, ∀ lower, plan.Produces key lower →
        lower ∈ seen ∨ lower ∈ resetKeys steps) ?_ ?_ ?_ ?_ seen stack
  · intro seen
    exact ⟨fun key hkey => absurd hkey List.not_mem_nil,
      fun key hkey => absurd hkey List.not_mem_nil⟩
  · rintro seen key stack hkey ⟨hstack, hclosed⟩
    refine ⟨fun other hother => ?_, hclosed⟩
    rcases List.mem_cons.1 hother with rfl | hrest
    · exact .inl hkey
    · exact hstack other hrest
  · rintro seen key stack - hnone ⟨hstack, hclosed⟩
    constructor
    · intro other hother
      rcases List.mem_cons.1 hother with rfl | hrest
      · exact .inr (.head _)
      · exact hshift (hstack other hrest)
    · intro other hother lower hlower
      rcases List.mem_cons.1 hother with rfl | hrest
      · obtain ⟨t, ht, -⟩ := hlower
        rw [hnone] at ht
        cases ht
      · exact hshift (hclosed other hrest lower hlower)
  · rintro seen key stack t - hsome ⟨hstack, hclosed⟩
    rw [← resetKeys_empties t.choiceKeys] at hstack hclosed
    constructor
    · intro other hother
      rcases List.mem_cons.1 hother with rfl | hrest
      · exact .inr (.head _)
      · exact hshift (hstack other (List.mem_append_right _ hrest))
    · intro other hother lower hlower
      rcases List.mem_cons.1 hother with rfl | hrest
      · obtain ⟨t', ht', hproduced⟩ := hlower
        obtain rfl : t = t' := Option.some.inj (hsome.symm.trans ht')
        exact hshift (hstack lower (List.mem_append_left _ hproduced))
      · exact hshift (hclosed other hrest lower hlower)

/-- What a search resets is reachable from its stack. -/
theorem reached_cascadeFrom (seen stack : List String) :
    ∀ key ∈ resetKeys (plan.cascadeFrom seen stack),
      ∃ top ∈ stack, Relation.ReflTransGen plan.Produces top key := by
  refine plan.cascadeFrom_induct (P := fun _ stack steps => ∀ key ∈ resetKeys steps,
    ∃ top ∈ stack, Relation.ReflTransGen plan.Produces top key) ?_ ?_ ?_ ?_ seen stack
  · intro seen key hkey
    exact absurd hkey List.not_mem_nil
  · intro seen key stack _ ih other hother
    obtain ⟨top, htop, hpath⟩ := ih other hother
    exact ⟨top, .tail _ htop, hpath⟩
  · intro seen key stack _ _ ih other hother
    rcases List.mem_cons.1 hother with rfl | hrest
    · exact ⟨other, .head _, .refl⟩
    · obtain ⟨top, htop, hpath⟩ := ih other hrest
      exact ⟨top, .tail _ htop, hpath⟩
  · intro seen key stack t _ hsome ih other hother
    rw [← resetKeys_empties t.choiceKeys] at ih
    rcases List.mem_cons.1 hother with rfl | hrest
    · exact ⟨other, .head _, .refl⟩
    · obtain ⟨top, htop, hpath⟩ := ih other hrest
      rcases List.mem_append.1 htop with hproduced | hstack
      · exact ⟨key, .head _, .head ⟨t, hsome, hproduced⟩ hpath⟩
      · exact ⟨top, .tail _ hstack, hpath⟩

/-- A search supersedes the triggers that it resets, each of them once. -/
theorem countP_supersedes (seen stack : List String) (name : String) :
    (plan.cascadeFrom seen stack).countP (·.supersedes name) =
      if name ∈ resetKeys (plan.cascadeFrom seen stack) ∧ (plan.trigger? name).isSome then 1
      else 0 := by
  refine plan.cascadeFrom_induct (P := fun _ _ steps => steps.countP (·.supersedes name) =
    if name ∈ resetKeys steps ∧ (plan.trigger? name).isSome then 1 else 0) ?_ ?_ ?_ ?_ seen stack
  · intro seen
    rfl
  · intro seen key stack _ ih
    exact ih
  · intro seen key stack _ hnone ih
    have hcount : (CascadeStep.reset key :: plan.cascadeFrom (key :: seen) stack).countP
        (·.supersedes name) = (plan.cascadeFrom (key :: seen) stack).countP (·.supersedes name) :=
      List.countP_cons_of_neg Bool.false_ne_true
    rw [hcount, ih]
    by_cases hname : name = key
    · subst hname
      simp [hnone]
    · simp [resetKeys, CascadeStep.reset?, hname]
  · intro seen key stack t _ hsome ih
    have hempties : (t.choiceKeys.map CascadeStep.empty).countP (·.supersedes name) = 0 := by
      rw [List.countP_map]
      exact List.countP_eq_zero.2 fun _ _ => Bool.false_ne_true
    -- The rest of the search resets fresh keys, so not the trigger that was reset first.
    have hfresh : key ∉ resetKeys (plan.cascadeFrom (key :: seen) (t.produces ++ stack)) :=
      fun hmem => (plan.nodup_resets (key :: seen) (t.produces ++ stack)).2 key hmem (.head _)
    rw [← resetKeys_empties t.choiceKeys] at ih hfresh
    have hresets : resetKeys (.reset key :: .supersede key :: (t.choiceKeys.map .empty ++
        plan.cascadeFrom (key :: seen) (t.produces ++ stack))) =
          key :: resetKeys (t.choiceKeys.map .empty ++
            plan.cascadeFrom (key :: seen) (t.produces ++ stack)) := rfl
    rw [hresets, List.countP_cons, List.countP_cons, List.countP_append, hempties, Nat.zero_add, ih]
    by_cases hname : name = key
    · subst hname
      simp [hfresh, hsome, CascadeStep.supersedes]
    · have hname' : key ≠ name := fun h => hname h.symm
      simp [hname, hname', CascadeStep.supersedes]

/-- A search empties the choices that the triggers fill which it resets. -/
theorem any_empties (seen stack : List String) (field : String) :
    (plan.cascadeFrom seen stack).any (·.empties field) = true ↔
      ∃ key ∈ resetKeys (plan.cascadeFrom seen stack), ∃ t, plan.trigger? key = some t ∧
        field ∈ t.choiceKeys := by
  refine plan.cascadeFrom_induct (P := fun _ _ steps => steps.any (·.empties field) = true ↔
    ∃ key ∈ resetKeys steps, ∃ t, plan.trigger? key = some t ∧ field ∈ t.choiceKeys)
    ?_ ?_ ?_ ?_ seen stack
  · intro seen
    simp [resetKeys]
  · intro seen key stack _ ih
    exact ih
  · intro seen key stack _ hnone ih
    have hany : (CascadeStep.reset key :: plan.cascadeFrom (key :: seen) stack).any
        (·.empties field) = (plan.cascadeFrom (key :: seen) stack).any (·.empties field) := rfl
    rw [hany, ih]
    constructor
    · rintro ⟨other, hother, hfills⟩
      exact ⟨other, .tail _ hother, hfills⟩
    · rintro ⟨other, hother, t, ht, hfield⟩
      rcases List.mem_cons.1 hother with rfl | hrest
      · rw [hnone] at ht
        cases ht
      · exact ⟨other, hrest, t, ht, hfield⟩
  · intro seen key stack t _ hsome ih
    rw [← resetKeys_empties t.choiceKeys] at ih
    have hempties : (t.choiceKeys.map CascadeStep.empty).any (·.empties field) = true ↔
        field ∈ t.choiceKeys := by
      simp [List.any_map, CascadeStep.empties]
    have hany : (CascadeStep.reset key :: .supersede key :: (t.choiceKeys.map .empty ++
        plan.cascadeFrom (key :: seen) (t.produces ++ stack))).any (·.empties field) =
          ((t.choiceKeys.map CascadeStep.empty).any (·.empties field) ||
            (plan.cascadeFrom (key :: seen) (t.produces ++ stack)).any (·.empties field)) :=
      List.any_append
    rw [hany, Bool.or_eq_true, hempties, ih]
    constructor
    · rintro (hfield | ⟨other, hother, hfills⟩)
      · exact ⟨key, .head _, t, hsome, hfield⟩
      · exact ⟨other, .tail _ hother, hfills⟩
    · rintro ⟨other, hother, t', ht', hfield⟩
      rcases List.mem_cons.1 hother with rfl | hrest
      · obtain rfl : t = t' := Option.some.inj (hsome.symm.trans ht')
        exact .inl hfield
      · exact .inr ⟨other, hrest, t', ht', hfield⟩

/-! ## What a cascade resets -/

variable {key : String} {t : Trigger}

/-- The cascade of a trigger resets what the search below it resets. -/
theorem resetKeys_cascade :
    resetKeys (plan.cascade key t) = resetKeys (plan.cascadeFrom [key] t.produces) :=
  resetKeys_empties t.choiceKeys _

/-- The cascade of a trigger resets the other keys that are reachable from it. -/
theorem mem_resets_cascade (ht : plan.trigger? key = some t) (other : String) :
    other ∈ resetKeys (plan.cascade key t) ↔
      other ≠ key ∧ Relation.TransGen plan.Produces key other := by
  rw [plan.resetKeys_cascade]
  constructor
  · intro hother
    have hne : other ≠ key := by
      rintro rfl
      exact (plan.nodup_resets [other] t.produces).2 other hother (.head _)
    obtain ⟨top, htop, hpath⟩ := plan.reached_cascadeFrom [key] t.produces other hother
    exact ⟨hne, .head' ⟨t, ht, htop⟩ hpath⟩
  · rintro ⟨hne, hpath⟩
    obtain ⟨hstack, hclosed⟩ := plan.closed_cascadeFrom [key] t.produces
    -- Along a path from the trigger every key is the trigger itself or has been reset.
    have hall : other ∈ [key] ∨ other ∈ resetKeys (plan.cascadeFrom [key] t.produces) := by
      clear hne
      induction hpath with
      | single hproduces =>
        obtain ⟨t', ht', hproduced⟩ := hproduces
        obtain rfl : t = t' := Option.some.inj (ht.symm.trans ht')
        exact hstack _ hproduced
      | tail _ hproduces ih =>
        rcases ih with hself | hreset
        · obtain rfl := List.mem_singleton.1 hself
          obtain ⟨t', ht', hproduced⟩ := hproduces
          obtain rfl : t = t' := Option.some.inj (ht.symm.trans ht')
          exact hstack _ hproduced
        · exact hclosed _ hreset _ hproduces
    rcases hall with hself | hreset
    · exact absurd (List.mem_singleton.1 hself) hne
    · exact hreset

/-- The cascade of a trigger supersedes the triggers among the keys that it resets, each of them
once. -/
theorem countP_supersedes_cascade (name : String) :
    (plan.cascade key t).countP (·.supersedes name) =
      if name ∈ resetKeys (plan.cascade key t) ∧ (plan.trigger? name).isSome then 1 else 0 := by
  have hempties : (t.choiceKeys.map CascadeStep.empty).countP (·.supersedes name) = 0 := by
    rw [List.countP_map]
    exact List.countP_eq_zero.2 fun _ _ => Bool.false_ne_true
  rw [plan.resetKeys_cascade, ← plan.countP_supersedes, cascade, List.countP_append, hempties,
    Nat.zero_add]

/-- The cascade of a trigger empties the choices that the trigger fills and those that the triggers
fill which it resets. -/
theorem any_empties_cascade (ht : plan.trigger? key = some t) (field : String) :
    (plan.cascade key t).any (·.empties field) = true ↔
      ∃ upper ∈ key :: resetKeys (plan.cascade key t), ∃ t, plan.trigger? upper = some t ∧
        field ∈ t.choiceKeys := by
  have hempties : (t.choiceKeys.map CascadeStep.empty).any (·.empties field) = true ↔
      field ∈ t.choiceKeys := by
    simp [List.any_map, CascadeStep.empties]
  rw [plan.resetKeys_cascade, cascade, List.any_append, Bool.or_eq_true, hempties,
    plan.any_empties]
  constructor
  · rintro (hfield | ⟨upper, hupper, hfills⟩)
    · exact ⟨key, .head _, t, ht, hfield⟩
    · exact ⟨upper, .tail _ hupper, hfills⟩
  · rintro ⟨upper, hupper, t', ht', hfield⟩
    rcases List.mem_cons.1 hupper with rfl | hrest
    · obtain rfl : t = t' := Option.some.inj (ht.symm.trans ht')
      exact .inl hfield
    · exact .inr ⟨upper, hrest, t', ht', hfield⟩

end Plan

end SyncForm
