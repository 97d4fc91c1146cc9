import Mathlib.Data.List.Induction
import SyncForm.Catalog.Fixture
import SyncForm.Proofs.InFlight
import SyncForm.Proofs.Start

/-!
# The error shown beside a key

A lookup that counts and fails leaves its text beside the key that it was issued for. The text goes
when the key is written or reset, and a later failure replaces it; nothing else touches it, the
success of a later lookup included. So what stands beside an instance or a table is told by the run:
it is the text of a failure just if, of the steps that rewrite the key or end one of its lookups
failed, the last one is that failure (`Template.lookupError?_run`).
-/

namespace SyncForm

/-- What splits a list with a last element: that element, or one before it. -/
theorem append_singleton_split {α : Type} {xs before after : List α} {x y : α}
    (h : xs ++ [x] = before ++ y :: after) :
    (before = xs ∧ y = x ∧ after = []) ∨
      ∃ after', after = after' ++ [x] ∧ xs = before ++ y :: after' := by
  rcases List.eq_nil_or_concat after with rfl | ⟨after', z, rfl⟩
  · obtain ⟨hxs, hx⟩ := List.append_inj' h rfl
    exact .inl ⟨hxs.symm, (List.singleton_inj.1 hx).symm, rfl⟩
  · rw [List.concat_eq_append, ← List.cons_append, ← List.append_assoc] at h
    obtain ⟨hxs, hx⟩ := List.append_inj' h rfl
    obtain rfl := List.singleton_inj.1 hx
    exact .inr ⟨after', List.concat_eq_append, hxs⟩

/-! ## The field of a lookup -/

/-- A text that is shorter than a mark has no mark in it. -/
theorem beforeLast_of_lt {mark : List Char} :
    ∀ {cs : List Char}, cs.length < mark.length → beforeLast mark cs = none
  | [], _ => rfl
  | c :: cs, h => by
    have hrest : cs.length < mark.length := Nat.lt_of_succ_lt h
    have hprefix : ¬ mark.isPrefixOf (c :: cs) = true := fun hpre =>
      absurd (List.isPrefixOf_iff_prefix.1 hpre).length_le (Nat.not_le.2 h)
    rw [beforeLast, beforeLast_of_lt hrest]
    exact if_neg hprefix

/-- A mark at the end of a text is the last one in it. -/
theorem beforeLast_append {mark : List Char} (hmark : mark ≠ []) :
    ∀ cs : List Char, beforeLast mark (cs ++ mark) = some cs
  | [] => by
    obtain ⟨c, rest, rfl⟩ := List.exists_cons_of_ne_nil hmark
    have hself : (c :: rest).isPrefixOf (c :: rest) = true :=
      List.isPrefixOf_iff_prefix.2 (List.prefix_refl _)
    rw [List.nil_append, beforeLast, beforeLast_of_lt (Nat.lt_succ_self rest.length)]
    exact if_pos hself
  | c :: cs => by rw [List.cons_append, beforeLast, beforeLast_append hmark cs]

/-- The field of a loader is recovered from its name, whatever its key is. -/
theorem loadedField_of_loader (key : String) : loadedField (loaderName key) = key := by
  have hname : (loaderName key).toList = key.toList ++ ":options".toList := by simp [loaderName]
  rw [loadedField, hname, beforeLast_append (by decide)]
  exact String.ofList_toList

/-- The field that a failure of a lookup is shown beside. -/
def Lookup.owner (l : Lookup) : String :=
  l.compareKey.getD (loadedField l.ticket.trigger)

/-- The lookup of a rung belongs to the rung. -/
theorem Lookup.OfRung.owner {l : Lookup} {side : Side} {rung : Rung} (h : l.OfRung side rung) :
    l.owner = rung.key side := by
  rw [Lookup.owner, h.compareKey]
  rfl

/-- A loader belongs to the field that it loads. -/
theorem Lookup.OfLoader.owner {l : Lookup} {side : Side} (h : l.OfLoader side) :
    l.owner = side.typeKey := by
  rw [Lookup.owner, h.compareKey, h.trigger]
  exact loadedField_of_loader side.typeKey

/-! ## Failures -/

/-- The text by which a failure is shown: what it says, or its family where it says nothing. -/
def Fault.mark (cause : Fault) : String :=
  if cause.text.isEmpty then cause.family else cause.text

/-- The error of a failed lookup that stands beside a key. -/
def Model.lookupError? (m : Model) (key : String) : Option String :=
  (m.find? key).bind (·.lookupError)

/-- A step rewrites a key: it is a change of the key or of one above it in its chain, which needs a
loop that runs lookups. -/
def Step.Rewrites (key : String) : Step → Prop
  | .change changed _ running => running = true ∧ ∃ (side : Side) (upper rung : Rung),
      upper.depth ≤ rung.depth ∧ changed = upper.key side ∧ key = rung.key side
  | .prime _ => False
  | .complete _ _ => False

namespace Plan

variable (plan : Plan)

/-- A step ends a lookup of a name failed, for a given cause. -/
def FailsWith (r : Resolver) (name : String) (cause : Fault) : Step → Prop
  | .change _ _ _ => False
  | .prime _ => False
  | .complete number ending => ∃ l outcome, r.lookup? number = some l ∧ l.ticket.trigger = name ∧
      ending.answer l = .error cause ∧
      (plan.complete r l (ending.answer l)).2 = .ok outcome ∧ outcome.status = .failed

/-- A failure stands at the end of a run: some step ends a lookup of the key failed, and no step
after it rewrites the key or ends a lookup of it failed. -/
def FailureStands (r : Resolver) (key : String) (cause : Fault) (steps : List Step) : Prop :=
  ∃ before step after, steps = before ++ step :: after ∧
    plan.FailsWith (plan.run r before) key cause step ∧
    ∀ between later rest, after = between ++ later :: rest → ¬ later.Rewrites key ∧
      ∀ other, ¬ plan.FailsWith (plan.run r (before ++ step :: between)) key other later

/-- A run takes its last step last. -/
theorem run_concat (r : Resolver) (steps : List Step) (step : Step) :
    plan.run r (steps ++ [step]) = plan.take (plan.run r steps) step :=
  List.foldl_append

/-- No failure stands where nothing happened. -/
theorem not_failureStands_nil (r : Resolver) (key : String) (cause : Fault) :
    ¬ plan.FailureStands r key cause [] := by
  rintro ⟨before, step, after, hsteps, -⟩
  cases before <;> cases hsteps

/-- A failure stands after a further step if that step is the failure, or if it stood before and the
step neither rewrites the key nor is a failure itself. -/
theorem failureStands_concat (r : Resolver) (key : String) (cause : Fault) (steps : List Step)
    (step : Step) :
    plan.FailureStands r key cause (steps ++ [step]) ↔
      plan.FailsWith (plan.run r steps) key cause step ∨
      (plan.FailureStands r key cause steps ∧ ¬ step.Rewrites key ∧
        ∀ other, ¬ plan.FailsWith (plan.run r steps) key other step) := by
  constructor
  · rintro ⟨before, failed, after, hsteps, hfails, hquiet⟩
    rcases append_singleton_split hsteps with ⟨rfl, rfl, rfl⟩ | ⟨between, rfl, rfl⟩
    · exact .inl hfails
    · obtain ⟨hrewrites, hother⟩ := hquiet between step [] rfl
      refine .inr ⟨⟨before, failed, between, rfl, hfails, ?_⟩, hrewrites, hother⟩
      rintro inner later rest rfl
      exact hquiet inner later (rest ++ [step]) (List.append_assoc ..)
  · rintro (hfails | ⟨⟨before, failed, after, rfl, hfails, hquiet⟩, hrewrites, hother⟩)
    · refine ⟨steps, step, [], rfl, hfails, ?_⟩
      intro between later rest hnil
      cases between <;> cases hnil
    · refine ⟨before, failed, after ++ [step], List.append_assoc .., hfails, ?_⟩
      intro between later rest hafter
      rcases append_singleton_split hafter with ⟨rfl, rfl, rfl⟩ | ⟨rest', rfl, rfl⟩
      · exact ⟨hrewrites, hother⟩
      · exact hquiet between later rest' rfl

/-- A failure is shown beside the key that its lookup belongs to. -/
theorem lookupError?_fail {r : Resolver} {l : Lookup} {owner : String} (howner : l.owner = owner)
    (cause : Fault) (key : String) :
    (fail r l cause).1.model.lookupError? key =
      if owner = key then (r.model.find? key).map fun _ => cause.mark
      else r.model.lookupError? key := by
  have hmodel : (fail r l cause).1.model =
      r.model.adjust owner fun e => { e with lookupError := some cause.mark } := by
    rw [← howner]
    rfl
  rw [Model.lookupError?, hmodel, Model.find?_adjust]
  split
  · rw [Option.bind_map]
    cases r.model.find? key <;> rfl
  · rfl

end Plan

namespace Template

variable (disabled : List String) {react : Reaction} {r : Resolver}

/-- A change of a rung takes away what stands beside it and beside the rungs below it. -/
theorem lookupError?_rerunKey (hreact : react.ListsOnly) (side : Side) (upper : Rung)
    (value : Value) (side' : Side) (rung : Rung) :
    (rerunKey disabled r side upper value react).model.lookupError? (rung.key side') =
      if Rung.AtOrAbove side upper side' rung then none
      else r.model.lookupError? (rung.key side') := by
  have hfind := (plan disabled react).find?_rerun (spares_key disabled hreact side' rung) r
    (upper.key side) value (upper.trigger side)
  rw [cascade_rung, Rung.resets_key] at hfind
  simp only [decide_eq_true_eq, key_inj] at hfind
  unfold Model.lookupError?
  rw [hfind]
  by_cases habove : Rung.Above side upper side' rung
  · have hat : Rung.AtOrAbove side upper side' rung := ⟨habove.1, Nat.le_of_lt habove.2⟩
    rw [if_pos habove, if_pos hat]
    rfl
  · rw [if_neg habove]
    by_cases hself : side = side' ∧ upper = rung
    · obtain ⟨rfl, rfl⟩ := hself
      rw [if_pos ⟨rfl, rfl⟩, if_pos ⟨rfl, Nat.le_refl _⟩]
      rfl
    · have hnot : ¬ Rung.AtOrAbove side upper side' rung := by
        rintro ⟨hside, hdepth⟩
        rcases Nat.lt_or_eq_of_le hdepth with hlt | heq
        · exact habove ⟨hside, hlt⟩
        · exact hself ⟨hside, Rung.depth_inj heq⟩
      rw [if_neg hself, if_neg hnot]

/-- A step rewrites the key of a rung just if it is a change of a rung at it or above it. -/
theorem rewrites_key {side side' : Side} {upper rung : Rung} {value : Value} :
    (Step.change (upper.key side) value true).Rewrites (rung.key side') ↔
      Rung.AtOrAbove side upper side' rung := by
  constructor
  · rintro ⟨-, side₁, upper₁, rung₁, hdepth, hchanged, hkey⟩
    obtain ⟨rfl, rfl⟩ := key_inj.1 hchanged
    obtain ⟨rfl, rfl⟩ := key_inj.1 hkey
    exact ⟨rfl, hdepth⟩
  · rintro ⟨rfl, hdepth⟩
    exact ⟨rfl, side, upper, rung, hdepth, rfl, rfl⟩

section

variable (hreact : react.ListsOnly) (h : r.Tracked) {side : Side} {rung : Rung}

include hreact h

/-- A step that rewrites a rung leaves nothing beside it. -/
theorem lookupError?_of_rewrites {step : Step} (hstep : step.Rewrites (rung.key side)) :
    ((plan disabled react).take r step).model.lookupError? (rung.key side) = none := by
  cases step with
  | change changed value running =>
    obtain ⟨rfl, side', upper, rung', hdepth, rfl, hkey⟩ := hstep
    obtain ⟨rfl, rfl⟩ := key_inj.1 hkey
    rw [take_rung disabled r h, lookupError?_rerunKey disabled hreact, if_pos ⟨rfl, hdepth⟩]
  | prime running => exact absurd hstep id
  | complete number ending => exact absurd hstep id

omit hreact in
/-- A failed lookup of a rung leaves its text beside the rung. -/
theorem lookupError?_of_fails {step : Step} {cause : Fault}
    (hstep : (plan disabled react).FailsWith r (rung.key side) cause step) :
    ((plan disabled react).take r step).model.lookupError? (rung.key side) = some cause.mark := by
  cases step with
  | change changed value running => exact absurd hstep id
  | prime running => exact absurd hstep id
  | complete number ending =>
    obtain ⟨l, outcome, hl, htrigger, hanswer, hok, hfailed⟩ := hstep
    have hin := (Resolver.lookup?_eq_some hl).1
    have howner : l.owner = rung.key side := by
      rcases h.known l hin with ⟨side', rung', hrung⟩ | ⟨side', hloader⟩
      · exact hrung.owner.trans (hrung.trigger.symm.trans htrigger)
      · exact absurd (hloader.trigger.symm.trans htrigger) (Rung.loaderName_ne_key side side' rung)
    have hheld : (r.model.find? (rung.key side)).isSome = true := holds_model r h side rung
    obtain ⟨e, he⟩ := Option.isSome_iff_exists.1 hheld
    simp only [Plan.take, hl]
    cases hstale : r.isStale l with
    | true =>
      obtain ⟨event, hdone⟩ := (plan disabled react).complete_of_stale hstale (ending.answer l)
      rw [hdone] at hok
      cases hok
      cases hfailed
    | false =>
      rw [hanswer, (plan disabled react).complete_of_error hstale,
        Plan.lookupError?_fail howner, if_pos rfl]
      exact congrArg (Option.map fun _ => cause.mark) he

/-- Any other step leaves what stands beside an instance or a table. -/
theorem lookupError?_of_other (hrung : rung ≠ .type) {step : Step}
    (hrewrites : ¬ step.Rewrites (rung.key side))
    (hfails : ∀ cause, ¬ (plan disabled react).FailsWith r (rung.key side) cause step) :
    ((plan disabled react).take r step).model.lookupError? (rung.key side) =
      r.model.lookupError? (rung.key side) := by
  have htaken := (plan disabled react).take_cases r step
  generalize (plan disabled react).take r step = r' at htaken ⊢
  cases htaken with
  | refused | absent => rfl
  | written changed value _ hplain _ =>
    have hfind := (plan disabled react).find?_write (spares_key disabled hreact side rung) r
      changed value
    rw [if_neg (key_ne_of_trigger? disabled hplain side rung)] at hfind
    exact congrArg (Option.bind · Entry.lookupError) hfind
  | rerun changed value trigger htrigger _ =>
    obtain ⟨side', upper, rfl, rfl⟩ := trigger?_eq_some disabled react htrigger
    rw [rewrites_key] at hrewrites
    exact (lookupError?_rerunKey disabled hreact side' upper value side rung).trans
      (if_neg hrewrites)
  | primed running => rw [((plan disabled react).prime_model r running).1]
  | ended number ending l hl =>
    have hin := (Resolver.lookup?_eq_some hl).1
    have hends := complete_cases disabled react (h.known l hin) (holds_facets r h) ending
    generalize hdone : (plan disabled react).complete r l (ending.answer l) = done at hends ⊢
    cases hends with
    | stale | skipped | offered => rfl
    | failed _ cause hanswer =>
      have hname : l.ticket.trigger ≠ rung.key side := fun htrigger =>
        hfails cause ⟨l, _, hl, htrigger, hanswer, congrArg Prod.snd hdone, rfl⟩
      rcases h.known l hin with ⟨side', rung', hof⟩ | ⟨side', hloader⟩
      · rw [Plan.lookupError?_fail (hof.owner.trans hof.trigger.symm), if_neg hname]
        rfl
      · -- A loader belongs to a type, and the key is that of an instance or a table.
        have hne : side'.typeKey ≠ rung.key side := fun hkey =>
          hrung (key_inj.1 (show Rung.type.key side' = rung.key side from hkey)).2.symm
        rw [Plan.lookupError?_fail hloader.owner, if_neg hne]
        rfl
    | brought _ side' t _ _ =>
      have hunlisted := rung.unlisted side side'
      exact congrArg (Option.bind · Entry.lookupError) ((plan disabled react).find?_bring
        (spares_key disabled hreact side rung) (r.without l) side' t hunlisted.1 hunlisted.2)

/-- What stands beside an instance or a table after a run is what the last step left that rewrites it
or ends a lookup of it failed. -/
theorem lookupError?_of_tracked (hrung : rung ≠ .type)
    (hclear : r.model.lookupError? (rung.key side) = none) (steps : List Step) (text : String) :
    ((plan disabled react).run r steps).model.lookupError? (rung.key side) = some text ↔
      ∃ cause, (plan disabled react).FailureStands r (rung.key side) cause steps ∧
        text = cause.mark := by
  induction steps using List.reverseRecOn generalizing text with
  | nil =>
    rw [Plan.run_nil, hclear]
    refine iff_of_false (fun heq => nomatch heq) ?_
    rintro ⟨cause, hstands, -⟩
    exact (plan disabled react).not_failureStands_nil r _ cause hstands
  | append_singleton steps step ih =>
    have htracked := tracked_run disabled hreact h steps
    simp only [Plan.failureStands_concat, Plan.run_concat]
    by_cases hrewrites : step.Rewrites (rung.key side)
    · rw [lookupError?_of_rewrites disabled hreact htracked hrewrites]
      refine iff_of_false (fun heq => nomatch heq) ?_
      rintro ⟨cause, hfails | ⟨-, hnot, -⟩, -⟩
      · -- A change fails no lookup.
        cases step with
        | change changed value running => exact hfails
        | prime running => exact hfails
        | complete number ending => exact hrewrites
      · exact hnot hrewrites
    · by_cases hfails : ∃ cause, (plan disabled react).FailsWith
        ((plan disabled react).run r steps) (rung.key side) cause step
      · obtain ⟨cause, hcause⟩ := hfails
        rw [lookupError?_of_fails disabled htracked hcause]
        constructor
        · intro htext
          exact ⟨cause, .inl hcause, (Option.some.inj htext).symm⟩
        · rintro ⟨other, hother | ⟨-, -, hnot⟩, rfl⟩
          · rw [← lookupError?_of_fails disabled htracked hcause,
              lookupError?_of_fails disabled htracked hother]
          · exact absurd hcause (hnot cause)
      · have hnot : ∀ cause, ¬ (plan disabled react).FailsWith
            ((plan disabled react).run r steps) (rung.key side) cause step :=
          fun cause hcause => hfails ⟨cause, hcause⟩
        rw [lookupError?_of_other disabled hreact htracked hrung hrewrites hnot, ih]
        constructor
        · rintro ⟨cause, hstands, rfl⟩
          exact ⟨cause, .inr ⟨hstands, hrewrites, hnot⟩, rfl⟩
        · rintro ⟨cause, hfails' | ⟨hstands, -, -⟩, rfl⟩
          · exact absurd hfails' (hnot cause)
          · exact ⟨cause, hstands, rfl⟩

end

/-- The error shown is that of the last failure. In every run of the task form, of changes of any
keys to any values, first loads and ends of lookups in any order, what stands beside an instance or a
table is the text of a failure just if, of the steps that rewrite the key or end one of its lookups
failed, the last one is that failure. -/
theorem lookupError?_run (hreact : react.ListsOnly) (m : Model) {side : Side} {rung : Rung}
    (hrung : rung ≠ .type) (hclear : m.lookupError? (rung.key side) = none) (steps : List Step)
    (text : String) :
    let plan := plan disabled react
    let start := (plan.setUp (plan.start m)).1
    (plan.run start steps).model.lookupError? (rung.key side) = some text ↔
      ∃ cause, plan.FailureStands start (rung.key side) cause steps ∧ text = cause.mark := by
  intro plan start
  have hstart : start = plan.begun m := by
    simp only [start, plan, setUp_plan]
  rw [hstart]
  refine lookupError?_of_tracked disabled hreact (tracked_begun disabled react m) hrung ?_ steps text
  unfold Model.lookupError? at hclear ⊢
  rw [plan.find?_begun]
  cases hfind : m.find? (rung.key side) with
  | some e =>
    rw [hfind] at hclear
    exact hclear
  | none =>
    split <;> rfl

/-- A job that has chosen an instance of the source. -/
def chosenSource : Model :=
  .ofMembers [(Keys.sourceInstance, .text "1")]

/-- The failure of a lookup of the first load stands beside the instance. -/
theorem lookupError?_firstLoad :
    let plan := plan [] Reaction.none
    let fails := Ending.failed (.stated "RuntimeError" "out of order")
    (plan.run (plan.setUp (plan.start chosenSource)).1
      [.prime true, .complete 1 fails]).model.lookupError? Keys.sourceInstance =
        some "out of order" := by
  intro plan fails
  have hclear : chosenSource.lookupError? (Rung.place.key .source) = none := by decide +kernel
  have hplace : Rung.place ≠ .type := by decide
  have hspec := lookupError?_run [] Reaction.none_listsOnly chosenSource hplace hclear
    [.prime true, .complete 1 fails] "out of order"
  refine hspec.2 ⟨.stated "RuntimeError" "out of order",
    ⟨[.prime true], .complete 1 fails, [], rfl, ?_, ?_⟩, by decide +kernel⟩
  · have hpending : ((plan.run (plan.setUp (plan.start chosenSource)).1 [.prime true]).lookup? 1).map
        (fun l => (l.ticket.trigger, (plan.run (plan.setUp (plan.start chosenSource)).1
          [.prime true]).isStale l)) = some (Keys.sourceInstance, false) := by
      decide +kernel
    obtain ⟨l, hl, hpair⟩ := Option.map_eq_some_iff.1 hpending
    obtain ⟨htrigger, hfresh⟩ := Prod.mk.inj hpair
    exact ⟨l, _, hl, htrigger, rfl, congrArg Prod.snd (plan.complete_of_error hfresh _), rfl⟩
  · intro between later rest hnil
    cases between <;> cases hnil

/-- The error of a failed lookup stays when the lookup that a second first load issues for the same
value is applied and no other one is in flight. -/
theorem lookupError?_outlives_success :
    let plan := plan [] Reaction.none
    let fails := Ending.failed (.stated "RuntimeError" "out of order")
    let fixture := { Fixture.empty with tables := [("1", [.text "orders"])] }
    let answers := Ending.answered fixture.toCatalog
    let failed := plan.run (plan.setUp (plan.start chosenSource)).1
      [.prime true, .complete 1 fails, .complete 0 answers, .complete 2 answers]
    let again := plan.run failed [.prime true, .complete 3 answers, .complete 5 answers]
    failed.inFlight.length = 0 ∧ ∃ l, again.inFlight = [l] ∧
      l.ticket.trigger = Keys.sourceInstance ∧
      (∃ outcome, (plan.complete again l (answers.answer l)).2 = .ok outcome ∧
        outcome.status = .applied) ∧
      (plan.take again (.complete 4 answers)).inFlight.length = 0 ∧
      (plan.take again (.complete 4 answers)).model.lookupError? Keys.sourceInstance =
        some "out of order" := by
  intro plan fails fixture answers failed again
  have hrun : (failed.inFlight.length, again.inFlight.map (fun l => (l.ticket.trigger,
      (plan.complete again l (answers.answer l)).2.toOption.map (·.status))),
      (plan.take again (.complete 4 answers)).inFlight.length,
      (plan.take again (.complete 4 answers)).model.lookupError? Keys.sourceInstance) =
        (0, [(Keys.sourceInstance, some .applied)], 0, some "out of order") := by
    decide +kernel
  obtain ⟨hidle, hpending, hdone, hshown⟩ := by simpa only [Prod.mk.injEq] using hrun
  obtain ⟨l, rest, hin, hl, hrest⟩ := List.map_eq_cons_iff.1 hpending
  obtain rfl := List.map_eq_nil_iff.1 hrest
  obtain ⟨htrigger, hends⟩ := Prod.mk.inj hl
  obtain ⟨outcome, hok, hstatus⟩ := Option.map_eq_some_iff.1 hends
  refine ⟨hidle, l, hin, htrigger, ⟨outcome, ?_, hstatus⟩, hdone, hshown⟩
  cases hcomplete : (plan.complete again l (answers.answer l)).2 with
  | error fault =>
    rw [hcomplete] at hok
    cases hok
  | ok ended =>
    rw [hcomplete] at hok
    exact congrArg Except.ok (Option.some.inj hok)

end Template

end SyncForm
