import SyncForm.Resolver.Plan

/-!
# Cascades

When a trigger changes, what its lookup produces is out of date, and so is what further triggers
among the reset keys produce. The cascade of a trigger is the list of steps that bring all of it up
to date, in depth-first order; a key that several triggers produce is reset once, so cyclic tables
have finite cascades as well.
-/

namespace SyncForm

/-- A step of a cascade. -/
inductive CascadeStep where
  /-- The choices of a field are emptied. -/
  | empty (field : String)
  /-- A key is reset to its default. -/
  | reset (key : String)
  /-- Lookups under way for a trigger no longer count. -/
  | supersede (key : String)

namespace Plan

variable (plan : Plan)

/-- The fields whose key is not among those seen. -/
def unseen (seen : List String) : List Descriptor :=
  plan.descriptors.filter fun d => !seen.contains d.key

/-- Seeing a key takes it out of what is unseen. -/
theorem unseen_cons (key : String) (seen : List String) :
    plan.unseen (key :: seen) = (plan.unseen seen).filter (·.key != key) := by
  simp only [unseen, List.filter_filter]
  refine List.filter_congr fun e _ => ?_
  simp only [List.contains_cons]
  grind

/-- Seeing the key of a trigger leaves fewer fields unseen. -/
theorem length_unseen_cons_lt {seen : List String} {key : String} {trigger : Trigger}
    (hseen : ¬ seen.contains key = true) (htrigger : plan.trigger? key = some trigger) :
    (plan.unseen (key :: seen)).length < (plan.unseen seen).length := by
  obtain ⟨d, hfind, -⟩ := Option.bind_eq_some_iff.1 htrigger
  have hmem : d ∈ plan.descriptors := List.mem_of_find?_eq_some hfind
  have hkey : d.key = key := by simpa using List.find?_some hfind
  have hin : d ∈ plan.unseen seen := by
    simp only [unseen, List.mem_filter]
    grind
  rw [unseen_cons]
  exact List.length_filter_lt_length_iff_exists.2 ⟨d, hin, by simp [hkey]⟩

/-- Seeing a key never leaves more fields unseen. -/
theorem length_unseen_cons_le (seen : List String) (key : String) :
    (plan.unseen (key :: seen)).length ≤ (plan.unseen seen).length := by
  rw [unseen_cons]
  exact List.length_filter_le _ _

/-- The steps for a stack of produced keys, those seen left out. -/
def cascadeFrom (seen : List String) : List String → List CascadeStep
  | [] => []
  | key :: stack =>
    if _ : seen.contains key = true then cascadeFrom seen stack
    else
      match htrigger : plan.trigger? key with
      | none => .reset key :: cascadeFrom (key :: seen) stack
      | some trigger =>
        .reset key :: .supersede key ::
          (trigger.choiceKeys.map .empty ++ cascadeFrom (key :: seen) (trigger.produces ++ stack))
termination_by stack => ((plan.unseen seen).length, stack.length)
decreasing_by
  · exact Prod.Lex.right _ (by simp)
  · rcases Nat.lt_or_eq_of_le (plan.length_unseen_cons_le seen key) with h | h
    · exact Prod.Lex.left _ _ h
    · rw [h]
      exact Prod.Lex.right _ (by simp)
  · exact Prod.Lex.left _ _ (plan.length_unseen_cons_lt (by assumption) htrigger)

/-- The cascade of a changed trigger. -/
def cascade (key : String) (trigger : Trigger) : List CascadeStep :=
  trigger.choiceKeys.map .empty ++ plan.cascadeFrom [key] trigger.produces

end Plan

end SyncForm
