import SyncForm.Catalog.Fixture
import SyncForm.Proofs.FirstLoad
import SyncForm.Proofs.Start

/-!
# Later lookups win

The resolver decides from a counter whether a lookup still counts. This module puts the history of
the run in the place of the counter: a lookup is discarded just if, since it was issued, its key or
one above it was changed or a first load has issued its lookup again, or if it was issued for a
value that does not equal itself (`Template.discarded_iff_superseded`).
-/

namespace SyncForm

namespace Plan

variable (plan : Plan)

/-- A step supersedes the lookups of a name: it is a change of the key of that name or of one above
it, or a first load that issues a lookup of that name. Both need a loop that runs lookups. -/
def Supersedes (r : Resolver) (name : String) : Step → Prop
  | .change key _ running => running = true ∧ ∃ (side : Side) (rung other : Rung),
      rung.depth ≤ other.depth ∧ key = rung.key side ∧ name = other.key side
  | .prime running => running = true ∧ ∃ tickets, (plan.prime r true).2 = .ok tickets ∧
      ∃ ticket ∈ tickets, ticket.trigger = name
  | .complete _ _ => False

/-- Some step of a run supersedes the lookups of a name. -/
def SupersededIn (r : Resolver) (name : String) (steps : List Step) : Prop :=
  ∃ before step after, steps = before ++ step :: after ∧
    plan.Supersedes (plan.run r before) name step

/-- Nothing is superseded where nothing happens. -/
theorem not_supersededIn_nil (r : Resolver) (name : String) : ¬ plan.SupersededIn r name [] := by
  rintro ⟨before, step, after, hsteps, -⟩
  cases before <;> cases hsteps

/-- A run supersedes with its first step or with those after it. -/
theorem supersededIn_cons (r : Resolver) (name : String) (step : Step) (rest : List Step) :
    plan.SupersededIn r name (step :: rest) ↔
      plan.Supersedes r name step ∨ plan.SupersededIn (plan.take r step) name rest := by
  constructor
  · rintro ⟨before, s, after, hsteps, hsupersedes⟩
    cases before with
    | nil =>
      cases hsteps
      exact .inl hsupersedes
    | cons first before =>
      cases hsteps
      exact .inr ⟨before, s, after, rfl, hsupersedes⟩
  · rintro (hfirst | ⟨before, s, after, rfl, hsupersedes⟩)
    · exact ⟨[], step, rest, rfl, hfirst⟩
    · exact ⟨step :: before, s, after, rfl, hsupersedes⟩

end Plan

/-- How a lookup that still counts ends, by what its fetch came to. -/
def LookupStatus.ofAnswer : Except Fault (Option LookupResult) → LookupStatus
  | .error _ => failed
  | .ok none => skipped
  | .ok (some _) => applied

namespace Template

variable (disabled : List String) {react : Reaction} {r : Resolver}

/-! ## Counters and history -/

/-- The names of the lookups of the task form. -/
def Named (name : String) : Prop :=
  (∃ side rung, name = Rung.key rung side) ∨ ∃ side : Side, name = loaderName side.typeKey

/-- An accepted change of a rung moves the counter of a name just if it supersedes its lookups. -/
theorem generation?_change (h : r.Tracked) {name : String} (hname : Named name) (side : Side)
    (rung : Rung) (value : Value) :
    ((plan disabled react).take r (.change (rung.key side) value true)).generation? name =
        r.generation? name ↔
      ¬ (plan disabled react).Supersedes r name (.change (rung.key side) value true) := by
  rw [take_rung disabled r h]
  rcases hname with ⟨side', other, rfl⟩ | ⟨side', rfl⟩
  · obtain ⟨n, hn⟩ := Option.isSome_iff_exists.1 (h.counted side' other)
    have habove : (plan disabled react).Supersedes r (other.key side')
        (.change (rung.key side) value true) ↔ Rung.AtOrAbove side rung side' other := by
      constructor
      · rintro ⟨-, side₁, rung₁, other₁, hdepth, hkey, hother⟩
        obtain ⟨rfl, rfl⟩ := key_inj.1 hkey
        obtain ⟨rfl, rfl⟩ := key_inj.1 hother
        exact ⟨rfl, hdepth⟩
      · rintro ⟨rfl, hdepth⟩
        exact ⟨rfl, side, rung, other, hdepth, rfl, rfl⟩
    rw [generation?_rerunKey, habove, hn]
    by_cases hmoves : Rung.AtOrAbove side rung side' other
    · simp [hmoves]
    · simp [hmoves]
  · rw [generation?_rerunKey_loader]
    refine iff_of_true rfl ?_
    rintro ⟨-, side₁, rung₁, other₁, -, -, hother⟩
    exact Rung.loaderName_ne_key side₁ side' other₁ hother

/-- A step moves the counter of a name just if it supersedes the lookups of that name. -/
theorem generation?_take (hreact : react.ListsOnly) (h : r.Tracked) {name : String}
    (hname : Named name) (step : Step) :
    ((plan disabled react).take r step).generation? name = r.generation? name ↔
      ¬ (plan disabled react).Supersedes r name step := by
  cases step with
  | change key value running =>
    by_cases hrung : running = true ∧ ∃ side rung, key = Rung.key rung side
    · obtain ⟨rfl, side, rung, rfl⟩ := hrung
      exact generation?_change disabled h hname side rung value
    · have hnot : ¬ (plan disabled react).Supersedes r name (.change key value running) := by
        rintro ⟨hrunning, side, rung, -, -, hkey, -⟩
        exact hrung ⟨hrunning, side, rung, hkey⟩
      refine iff_of_true ?_ hnot
      have htaken := (plan disabled react).take_cases r (.change key value running)
      generalize (plan disabled react).take r (.change key value running) = r' at htaken ⊢
      cases htaken with
      | refused | written => rfl
      | rerun _ _ trigger htrigger _ =>
        obtain ⟨side, rung, hkey, -⟩ := trigger?_eq_some disabled react htrigger
        exact absurd ⟨rfl, side, rung, hkey⟩ hrung
  | prime running =>
    cases running with
    | false =>
      rw [Plan.take, prime_idle disabled react h]
      exact iff_of_true rfl fun hsupersedes => absurd hsupersedes.1 (by decide)
    | true =>
      obtain ⟨tickets, hok, hcounts, -⟩ := generation?_prime disabled react h
      have hissues : (plan disabled react).Supersedes r name (.prime true) ↔
          name ∈ ticketNames tickets := by
        constructor
        · rintro ⟨-, tickets', hok', ticket, hmem, rfl⟩
          obtain rfl : tickets = tickets' := Except.ok.inj (hok.symm.trans hok')
          exact List.mem_map_of_mem hmem
        · intro hmem
          obtain ⟨ticket, hticket, htrigger⟩ := List.mem_map.1 hmem
          exact ⟨rfl, tickets, hok, ticket, hticket, htrigger⟩
      have hcounted : (r.generation? name).isSome := by
        rcases hname with ⟨side, rung, rfl⟩ | ⟨side, rfl⟩
        · exact h.counted side rung
        · exact h.loaders side
      obtain ⟨n, hn⟩ := Option.isSome_iff_exists.1 hcounted
      rw [Plan.take, hcounts, hissues, hn]
      by_cases hmem : name ∈ ticketNames tickets
      · simp [hmem]
      · simp [hmem]
  | complete number ending =>
    refine iff_of_true ?_ id
    have htaken := (plan disabled react).take_cases r (.complete number ending)
    generalize (plan disabled react).take r (.complete number ending) = r' at htaken ⊢
    cases htaken with
    | absent => rfl
    | ended _ _ l hl =>
      have hframe := frame_complete disabled r hreact h (Resolver.lookup?_eq_some hl).1 ending
      exact congrArg (Assoc.valueOf? · name) hframe.generations

/-- A run moves the counter of a name just if it supersedes the lookups of that name. -/
theorem generation?_run (hreact : react.ListsOnly) (h : r.Tracked) {name : String}
    (hname : Named name) (steps : List Step) :
    ((plan disabled react).run r steps).generation? name = r.generation? name ↔
      ¬ (plan disabled react).SupersededIn r name steps := by
  induction steps generalizing r with
  | nil => exact iff_of_true rfl ((plan disabled react).not_supersededIn_nil r name)
  | cons step rest ih =>
    obtain ⟨hstep, htracked⟩ := advances_take disabled hreact h step
    have hrest := (advances_run disabled hreact htracked rest).1
    have hstill := hstep.still hrest name
    rw [generation?_take disabled hreact h hname, ih htracked] at hstill
    rw [Plan.supersededIn_cons, not_or]
    exact hstill

/-! ## Issued lookups and their ends -/

/-- A lookup that a step has issued is the latest of its name. -/
theorem latest_take (hreact : react.ListsOnly) (h : r.Tracked) {step : Step} {l : Lookup}
    (hl : l ∈ ((plan disabled react).take r step).inFlight) (hnew : r.issued ≤ l.ticket.number) :
    ((plan disabled react).take r step).Latest l := by
  have hold : l ∉ r.inFlight := fun hold => absurd (h.numbered l hold) (by omega)
  have htaken := (plan disabled react).take_cases r step
  generalize (plan disabled react).take r step = r' at htaken hl ⊢
  cases htaken with
  | refused | written | absent => exact absurd hl hold
  | rerun key value trigger htrigger _ =>
    obtain ⟨side, rung, rfl, rfl⟩ := trigger?_eq_some disabled react htrigger
    rw [((plan disabled react).inFlight_rerun ..).1] at hl
    obtain rfl := List.mem_singleton.1 ((List.mem_append.1 hl).resolve_left hold)
    exact (tracked_rerunKey disabled r side rung value hreact h).2.latest
  | primed running => exact latest_prime disabled react h hl hnew
  | ended number ending l' hl' =>
    have hframe := frame_complete disabled r hreact h (Resolver.lookup?_eq_some hl').1 ending
    rw [hframe.inFlight] at hl
    exact absurd (Resolver.mem_without.1 hl).1 hold

/-- A lookup of a rung in flight is stale just if it is not the latest or was issued for a value
that does not equal itself. -/
theorem isStale_iff (h : r.Tracked) {l : Lookup} (hl : l ∈ r.inFlight) {side : Side} {rung : Rung}
    (hrung : l.OfRung side rung) :
    r.isStale l = true ↔ ¬ r.Latest l ∨ l.ticket.value.equals l.ticket.value = false := by
  rw [← Bool.not_eq_false, Resolver.isStale_eq_false hrung.compareKey]
  by_cases hlatest : r.Latest l
  · simp [hlatest, h.value_eq hl hrung hlatest]
  · simp [hlatest]

variable (react) in
/-- A lookup ends discarded just if it is stale, and then nothing changes but that it is no longer
in flight; otherwise it ends by what its fetch came to. -/
theorem complete_spec (h : r.Tracked) {l : Lookup} (hl : l ∈ r.inFlight) (ending : Ending) :
    ∃ outcome, ((plan disabled react).complete r l (ending.answer l)).2 = .ok outcome ∧
      (outcome.status = .discarded ↔ r.isStale l = true) ∧
      (outcome.status = .discarded ∨ outcome.status = .ofAnswer (ending.answer l)) ∧
      (outcome.status = .discarded →
        ((plan disabled react).complete r l (ending.answer l)).1.model = r.model ∧
        ((plan disabled react).complete r l (ending.answer l)).1.facets = r.facets ∧
        ((plan disabled react).complete r l (ending.answer l)).1.generations = r.generations) := by
  have hends := complete_cases disabled react (h.known l hl) (holds_facets r h) ending
  generalize (plan disabled react).complete r l (ending.answer l) = done at hends ⊢
  cases hends with
  | stale hstale => exact ⟨_, rfl, iff_of_true rfl hstale, .inl rfl, fun _ => ⟨rfl, rfl, rfl⟩⟩
  | failed hfresh _ hanswer | skipped hfresh hanswer | offered hfresh _ _ _ _ hanswer
  | brought hfresh _ _ _ hanswer =>
    rw [hfresh, hanswer]
    exact ⟨_, rfl, iff_of_false (by simp [Plan.fail]) (by simp), .inr rfl,
      fun hstatus => by cases hstatus⟩

/-- The loaders are superseded by first loads alone. -/
theorem supersededIn_loader (hreact : react.ListsOnly) (h : r.Tracked) (side : Side)
    (steps : List Step) :
    (plan disabled react).SupersededIn r (loaderName side.typeKey) steps ↔
      .prime true ∈ steps := by
  induction steps generalizing r with
  | nil => exact iff_of_false ((plan disabled react).not_supersededIn_nil r _) List.not_mem_nil
  | cons step rest ih =>
    have hstep : (plan disabled react).Supersedes r (loaderName side.typeKey) step ↔
        .prime true = step := by
      cases step with
      | change key value running =>
        refine iff_of_false ?_ (by simp)
        rintro ⟨-, side₁, -, other₁, -, -, hother⟩
        exact Rung.loaderName_ne_key side₁ side other₁ hother
      | prime running =>
        obtain ⟨tickets, hok, -, hloaders⟩ := generation?_prime disabled react h
        obtain ⟨ticket, hticket, htrigger⟩ := List.mem_map.1 (hloaders side)
        constructor
        · rintro ⟨rfl, -⟩
          rfl
        · intro hprime
          cases hprime
          exact ⟨rfl, tickets, hok, ticket, hticket, htrigger⟩
      | complete number ending => exact iff_of_false id (by simp)
    rw [Plan.supersededIn_cons, hstep, ih (tracked_take disabled hreact h step), List.mem_cons]

/-- Later lookups win. A lookup issued in a run of the task form and completed later ends discarded
just if its lookups were superseded meanwhile or, the lookup of a rung, it was issued for a value
that does not equal itself. Otherwise it ends by what its fetch came to. A discarded lookup leaves
the model, the fields and the counters as they were. -/
theorem discarded_iff_superseded (disabled : List String) {react : Reaction}
    (hreact : react.ListsOnly) (m : Model) (before : List Step) (step : Step)
    (between : List Step) (ending : Ending) (l : Lookup) :
    let plan := Template.plan disabled react
    let r₀ := plan.run (plan.setUp (plan.start m)).1 before
    let r₁ := plan.take r₀ step
    let r := plan.run r₁ between
    l ∈ r₁.inFlight → r₀.issued ≤ l.ticket.number → l ∈ r.inFlight →
    ∃ outcome, (plan.complete r l (ending.answer l)).2 = .ok outcome ∧
      ((∃ side rung, l.ticket.trigger = Rung.key rung side ∧
          (outcome.status = .discarded ↔ plan.SupersededIn r₁ (rung.key side) between ∨
            l.ticket.value.equals l.ticket.value = false)) ∨
        ∃ side, l.ticket.trigger = loaderName (Side.typeKey side) ∧
          (outcome.status = .discarded ↔ .prime true ∈ between)) ∧
      (outcome.status = .discarded ∨ outcome.status = .ofAnswer (ending.answer l)) ∧
      (outcome.status = .discarded →
        (plan.complete r l (ending.answer l)).1.model = r.model ∧
        (plan.complete r l (ending.answer l)).1.facets = r.facets ∧
        (plan.complete r l (ending.answer l)).1.generations = r.generations) := by
  intro plan r₀ r₁ r hissued hnew hpending
  have hstart : (plan.setUp (plan.start m)).1 = plan.begun m := by
    simp only [plan, setUp_plan]
  have h₀ : r₀.Tracked := tracked_run disabled hreact (hstart ▸ tracked_begun disabled react m) before
  have h₁ : r₁.Tracked := tracked_take disabled hreact h₀ step
  have h : r.Tracked := tracked_run disabled hreact h₁ between
  have hlatest₁ : r₁.Latest l := latest_take disabled hreact h₀ hissued hnew
  have hlatest : ∀ {name}, Named name → l.ticket.trigger = name →
      (r.Latest l ↔ ¬ plan.SupersededIn r₁ name between) := by
    rintro name hname rfl
    rw [← generation?_run disabled hreact h₁ hname between, hlatest₁]
    rfl
  obtain ⟨outcome, hok, hstale, hends, hkept⟩ :=
    complete_spec disabled react h hpending ending
  refine ⟨outcome, hok, ?_, hends, hkept⟩
  rcases h.known l hpending with ⟨side, rung, hrung⟩ | ⟨side, hloader⟩
  · refine .inl ⟨side, rung, hrung.trigger, ?_⟩
    rw [hstale, isStale_iff h hpending hrung, hlatest (.inl ⟨side, rung, rfl⟩) hrung.trigger,
      Classical.not_not]
  · refine .inr ⟨side, hloader.trigger, ?_⟩
    rw [hstale, ← supersededIn_loader disabled hreact h₁ side between, ← Bool.not_eq_false,
      Resolver.isStale_loader hloader.compareKey,
      hlatest (.inr ⟨side, rfl⟩) hloader.trigger, Classical.not_not]

/-- A second first load discards the loader that the first one issued. -/
theorem discarded_by_second_load :
    let plan := Template.plan [] Reaction.none
    let ending := Ending.answered Fixture.empty.toCatalog
    let r₁ := plan.take (plan.setUp (plan.start Model.empty)).1 (.prime true)
    let r := plan.take r₁ (.prime true)
    ∃ l ∈ r₁.inFlight, l ∈ r.inFlight ∧ ∃ outcome,
      (plan.complete r l (ending.answer l)).2 = .ok outcome ∧ outcome.status = .discarded := by
  intro plan ending r₁ r
  have hissued : r₁.inFlight.map (·.ticket.trigger) =
      [loaderName Keys.sourceType, loaderName Keys.targetType] := by
    decide +kernel
  obtain ⟨l, rest, hfirst, htrigger, -⟩ := List.map_eq_cons_iff.1 hissued
  have hmem : l ∈ r₁.inFlight := hfirst ▸ List.mem_cons_self
  have hpending : l ∈ (plan.take r₁ (.prime true)).inFlight := by
    rw [Plan.take]
    exact plan.prime_induct (P := fun s => l ∈ s.inFlight)
      (fun _ _ _ _ _ h => List.mem_append_left _ h)
      (fun _ _ _ _ _ _ _ _ _ h => List.mem_append_left _ h) hmem true
  have hzero : ((Template.plan [] Reaction.none).setUp
      ((Template.plan [] Reaction.none).start Model.empty)).1.issued = 0 := by
    decide +kernel
  have hspec := discarded_iff_superseded [] Reaction.none_listsOnly Model.empty [] (.prime true)
    [.prime true] ending l
  simp only [Plan.run_nil, Plan.run_cons, hzero] at hspec
  obtain ⟨outcome, hok, hwhich, -⟩ := hspec hmem (Nat.zero_le _) hpending
  refine ⟨l, hmem, hpending, outcome, hok, ?_⟩
  rcases hwhich with ⟨side, rung, hrung, -⟩ | ⟨side, -, hdiscarded⟩
  · exact absurd (htrigger.symm.trans hrung) (Rung.loaderName_ne_key side .source rung)
  · exact hdiscarded.2 (.head _)

/-- A lookup for a value that does not equal itself is discarded though nothing superseded it. -/
theorem discarded_though_not_superseded :
    let plan := Template.plan [] Reaction.none
    let ending := Ending.answered Fixture.empty.toCatalog
    let m := Model.ofMembers [(Keys.sourceType, .float .nan)]
    let r := plan.take (plan.setUp (plan.start m)).1 (.prime true)
    ∃ l ∈ r.inFlight, l.ticket.trigger = Keys.sourceType ∧
      ¬ plan.SupersededIn r l.ticket.trigger [] ∧
      ∃ outcome, (plan.complete r l (ending.answer l)).2 = .ok outcome ∧
        outcome.status = .discarded := by
  intro plan ending m r
  have hissued : r.inFlight.map (fun l => (l.ticket.trigger, r.isStale l)) =
      [(loaderName Keys.sourceType, false), (Keys.sourceType, true),
        (loaderName Keys.targetType, false)] := by
    decide +kernel
  obtain ⟨first, others, hin, -, hrest⟩ := List.map_eq_cons_iff.1 hissued
  obtain ⟨l, rest, rfl, hl, -⟩ := List.map_eq_cons_iff.1 hrest
  obtain ⟨htrigger, hstale⟩ := Prod.mk.inj hl
  obtain ⟨event, hcomplete⟩ := plan.complete_of_stale hstale (ending.answer l)
  exact ⟨l, hin ▸ .tail _ (.head _), htrigger, plan.not_supersededIn_nil r _, _,
    congrArg Prod.snd hcomplete, rfl⟩

end Template

end SyncForm
