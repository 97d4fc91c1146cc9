import Mathlib.Data.List.Perm.Basic
import SyncForm.Proofs.Filling
import SyncForm.Session

/-!
# How a session ends the lookups of a load

A session starts the lookups in flight and ends them as answers come in or deadlines pass. While
nothing else happens, each lookup has ended, or it waits, or it has not started (`Session.Loads`);
what a session makes of its form is then to end lookups in some order, and `Session.Loads.waitFor`
says that this is all that waiting does. Where no lookup waits for a gate and the clock tells the
moments apart, none is left in the end (`Session.waiting_waitFor`).
-/

namespace SyncForm

namespace Form

/-- Some lookups end, then others. -/
theorem endAll_append (f : Form) (ends rest : List (Nat × Ending)) :
    f.endAll (ends ++ rest) = (((f.endAll ends).1.endAll rest).1,
      (f.endAll ends).2 ++ ((f.endAll ends).1.endAll rest).2) := by
  induction ends generalizing f with
  | nil => rfl
  | cons e ends ih =>
    obtain ⟨number, ending⟩ := e
    simp only [List.cons_append, endAll]
    cases f.resolver.lookup? number with
    | none => exact ih f
    | some l => simp only [ih, List.cons_append]

/-- One lookup ends. -/
theorem endAll_singleton {f : Form} {l : Lookup} (h : f.resolver.lookup? l.ticket.number = some l)
    (ending : Ending) :
    f.endAll [(l.ticket.number, ending)] = ((f.complete l (ending.answer l)).1,
      [(l.ticket.number, (f.complete l (ending.answer l)).2)]) := by
  simp only [endAll, h]

end Form

namespace Session

/-- The catalog that a session asks. -/
def catalog (s : Session) : Catalog :=
  s.fixture.toCatalog.without s.failing

/-- How a session may end a lookup. -/
def Gives (s : Session) (ending : Ending) : Prop :=
  ending = .answered s.catalog ∨ ending = .failed .timedOut

/-- A started lookup waits for a gate, or for the latency and the deadline counted from the clock of
a session. -/
def Awaits (s : Session) (w : Waiting) : Prop :=
  s.gated = false → s.fixture.latency.isZero = false ∧
    w.wait = .time (s.clock.add s.fixture.latency) ∧ w.deadline = s.timeout.map s.clock.add

/-- A session goes on with the fixture and the deadlines of another one. -/
structure Continues (s s₀ : Session) : Prop where
  fixture : s.fixture = s₀.fixture
  failing : s.failing = s₀.failing
  timeout : s.timeout = s₀.timeout
  gated : s.gated = s₀.gated

/-- A lookup that starts ends at once, as it may, or waits. -/
theorem start_cases (s : Session) (l : Lookup) :
    ∃ calls, (∃ ending, s.Gives ending ∧
        s.start l = ({ s with calls } : Session).finish l (ending.answer l)) ∨
      ∃ wait, s.start l = ({ s with calls } : Session).await l wait ∧
        (s.gated = false → s.fixture.latency.isZero = false ∧
          wait = .time (s.clock.add s.fixture.latency)) := by
  unfold start
  split
  · exact ⟨s.calls, .inl ⟨.failed .timedOut, .inr rfl, rfl⟩⟩
  · cases hquery : l.fetch.query? l.snapshot with
    | none =>
      have hanswer : (Ending.answered s.catalog).answer l = .ok none := by
        simp only [Ending.answer, Fetch.run, hquery]
      exact ⟨s.calls, .inl ⟨.answered s.catalog, .inl rfl, by rw [hanswer]⟩⟩
    | some query =>
      refine ⟨s.calls ++ [query], ?_⟩
      dsimp only
      split
      · next hgated => exact .inr ⟨_, rfl, fun hungated => by simp [hungated] at hgated⟩
      · split
        · exact .inl ⟨.answered s.catalog, .inl rfl, rfl⟩
        · next hlatency => exact .inr ⟨_, rfl, fun _ => ⟨Bool.eq_false_iff.2 hlatency, rfl⟩⟩

/-- A lookup that is due ends. -/
theorem ring_eq (s : Session) (w : Waiting) :
    ∃ ending, s.Gives ending ∧ s.ring w = s.finish w.lookup (ending.answer w.lookup) := by
  unfold ring
  split
  · exact ⟨.failed .timedOut, .inr rfl, rfl⟩
  · exact ⟨.answered s.catalog, .inl rfl, rfl⟩

/-- The numbers of some started lookups. -/
def numbersOf (ws : List Waiting) : List Nat :=
  ws.map (·.lookup.ticket.number)

/-- A session on its way through the lookups of a form: some have ended, some wait, and some are
still to start. -/
structure Loads (base : Form) (s₀ : Session) (todo : List Lookup) (ends : List (Nat × Ending))
    (s : Session) : Prop where
  form : s.form = (base.endAll ends).1
  ended : s.ended = s₀.ended ++ (base.endAll ends).2
  continues : s.Continues s₀
  clock : todo ≠ [] → s.clock = s₀.clock
  gives : ∀ e ∈ ends, s₀.Gives e.2
  parts : (ends.map (·.1) ++ (numbersOf s.waiting ++ todo.map (·.ticket.number))).Perm
    (base.resolver.inFlight.map (·.ticket.number))
  waiting : ∀ w ∈ s.waiting, w.lookup ∈ base.resolver.inFlight ∧ s₀.Awaits w
  todo : ∀ l ∈ todo, l ∈ base.resolver.inFlight

/-- The outcomes of some lookups are found where none of them ended in a fault. -/
theorem outcomes_eq_ok {s : Session} {numbers : List Nat} {outcomes : List LookupOutcome} :
    s.outcomes numbers = .ok outcomes ↔
      (∀ e ∈ s.ended, e.1 ∈ numbers → ∃ outcome, e.2 = .ok outcome) ∧
      (numbers.filterMap fun number => match s.outcome? number with
        | some (.ok outcome) => some outcome
        | _ => none) = outcomes := by
  unfold Session.outcomes
  dsimp only
  split
  · next fault hfault =>
    obtain ⟨e, he, hfault⟩ := List.exists_of_findSome?_eq_some hfault
    obtain ⟨he, hnumber⟩ := List.mem_filter.1 he
    refine iff_of_false nofun fun h => ?_
    obtain ⟨outcome, hok⟩ := h.1 e he (List.contains_iff_mem.1 hnumber)
    rw [hok] at hfault
    cases hfault
  · next hnone =>
    have hok : ∀ e ∈ s.ended, e.1 ∈ numbers → ∃ outcome, e.2 = .ok outcome := by
      intro e he hnumber
      have hno := List.findSome?_eq_none_iff.1 hnone e
        (List.mem_filter.2 ⟨he, List.contains_iff_mem.2 hnumber⟩)
      cases hresult : e.2 with
      | ok outcome => exact ⟨outcome, rfl⟩
      | error fault =>
        rw [hresult] at hno
        cases hno
    exact ⟨fun h => ⟨hok, Except.ok.inj h⟩, fun h => congrArg Except.ok h.2⟩

/-- The lookups that a session holds have ended, each with an outcome. -/
structure Holds (s : Session) (outcomes : List LookupOutcome) : Prop where
  ended : ∀ number ∈ s.held, number ∈ s.ended.map (·.1)
  outcomes : s.outcomes s.held = .ok outcomes

/-- A session that holds no lookup holds no outcome. -/
theorem Holds.nil {s : Session} (h : s.held = []) : s.Holds [] where
  ended number hnumber := by
    rw [h] at hnumber
    cases hnumber
  outcomes := by
    rw [h]
    exact outcomes_eq_ok.2 ⟨fun _ _ hnumber => absurd hnumber List.not_mem_nil, rfl⟩

namespace Loads

variable {disabled : List String} {m : Model} {base : Form} {s₀ s : Session} {todo : List Lookup}
  {ends : List (Nat × Ending)}

/-- No lookup is in two parts. -/
theorem nodup (hbase : base.resolver.Filling disabled m) (h : Loads base s₀ todo ends s) :
    (ends.map (·.1) ++ (numbersOf s.waiting ++ todo.map (·.ticket.number))).Nodup :=
  h.parts.nodup_iff.2 hbase.numbers

/-- The ends so far. -/
theorem endAll_spec (hbase : base.resolver.Filling disabled m) (h : Loads base s₀ todo ends s) :
    ∃ outcome : Nat → LookupOutcome,
      (base.endAll ends).2 = ends.map (fun e => (e.1, .ok (outcome e.1))) ∧
      base.Ends disabled m ends outcome s.form := by
  rw [h.form]
  refine Form.endAll_spec hbase ends (List.nodup_append.1 (h.nodup hbase)).1 fun e he => ?_
  have hmem : e.1 ∈ base.resolver.inFlight.map (·.ticket.number) :=
    h.parts.subset (List.mem_append_left _ (List.mem_map_of_mem he))
  exact List.mem_map.1 hmem

/-- The lookups in flight are those that have not ended. -/
theorem mem_inFlight (hbase : base.resolver.Filling disabled m) (h : Loads base s₀ todo ends s)
    {l : Lookup} : l ∈ s.form.resolver.inFlight ↔
      l ∈ base.resolver.inFlight ∧ l.ticket.number ∉ ends.map (·.1) := by
  obtain ⟨outcome, -, hends⟩ := h.endAll_spec hbase
  rw [hends.inFlight, List.mem_filter]
  simp

/-- A lookup of a later part has not ended. -/
theorem not_ended (hbase : base.resolver.Filling disabled m) (h : Loads base s₀ todo ends s)
    {number : Nat} (hlater : number ∈ numbersOf s.waiting ++ todo.map (·.ticket.number)) :
    number ∉ ends.map (·.1) :=
  fun hended => (List.nodup_append.1 (h.nodup hbase)).2.2 _ hended _ hlater rfl

/-- A lookup in flight ends. -/
theorem endAll_concat (hbase : base.resolver.Filling disabled m) (h : Loads base s₀ todo ends s)
    {l : Lookup} (hl : l ∈ base.resolver.inFlight)
    (hlater : l.ticket.number ∈ numbersOf s.waiting ++ todo.map (·.ticket.number))
    (ending : Ending) :
    base.endAll (ends ++ [(l.ticket.number, ending)]) = ((s.form.complete l (ending.answer l)).1,
      (base.endAll ends).2 ++ [(l.ticket.number, (s.form.complete l (ending.answer l)).2)]) := by
  have hin : l ∈ s.form.resolver.inFlight :=
    (h.mem_inFlight hbase).2 ⟨hl, h.not_ended hbase hlater⟩
  obtain ⟨outcome, -, hends⟩ := h.endAll_spec hbase
  have hform : s.form.resolver.Filling disabled m :=
    hbase.step hends.fills (hends.inFlight ▸ List.filter_sublist)
  rw [Form.endAll_append, ← h.form, Form.endAll_singleton (hform.lookup?_eq hin)]

/-- Putting a question changes nothing else. -/
theorem calls (h : Loads base s₀ todo ends s) (calls : List Query) :
    Loads base s₀ todo ends { s with calls } :=
  { h with continues := { h.continues with } }

/-- One of the lookups ends. -/
theorem finish (hbase : base.resolver.Filling disabled m) (h : Loads base s₀ todo ends s)
    {l : Lookup} (hl : l ∈ base.resolver.inFlight) {todo' : List Lookup} (hsub : todo' ⊆ todo)
    (hparts : (l.ticket.number :: (numbersOf (s.waiting.filter
        (·.lookup.ticket.number != l.ticket.number)) ++ todo'.map (·.ticket.number))).Perm
      (numbersOf s.waiting ++ todo.map (·.ticket.number)))
    {ending : Ending} (hgives : s₀.Gives ending) :
    Loads base s₀ todo' (ends ++ [(l.ticket.number, ending)])
      (s.finish l (ending.answer l)) := by
  have hended := h.endAll_concat hbase hl (hparts.subset (.head _)) ending
  exact
    { form := (congrArg Prod.fst hended).symm
      ended := by
        rw [hended, ← List.append_assoc, ← h.ended]
        rfl
      continues := { h.continues with }
      clock := fun hne => h.clock fun hnil => hne (List.subset_nil.1 (hnil ▸ hsub))
      gives := fun e he => by
        rcases List.mem_append.1 he with hold | hnew
        · exact h.gives e hold
        · rw [List.mem_singleton.1 hnew]
          exact hgives
      parts := by
        rw [List.map_append, List.append_assoc]
        exact (hparts.append_left _).trans h.parts
      waiting := fun w hw => h.waiting w (List.mem_filter.1 hw).1
      todo := fun l' hl' => h.todo l' (hsub hl') }

/-- A lookup that starts ends, or it waits. -/
theorem start (hbase : base.resolver.Filling disabled m) {l : Lookup}
    (h : Loads base s₀ (l :: todo) ends s) :
    ∃ ends', Loads base s₀ todo ends' (s.start l) := by
  have hl : l ∈ base.resolver.inFlight := h.todo l (.head _)
  obtain ⟨calls, ⟨ending, hgives, hstart⟩ | ⟨wait, hstart, hwait⟩⟩ := s.start_cases l
  · -- No started lookup has the number of one that is to start.
    have hnot : ∀ w ∈ s.waiting, w.lookup.ticket.number ≠ l.ticket.number := by
      intro w hw heq
      have hrest := (List.nodup_append.1 (h.nodup hbase)).2.1
      exact (List.nodup_append.1 hrest).2.2 _ (List.mem_map_of_mem hw) _ (.head _) heq
    have hfilter : s.waiting.filter (·.lookup.ticket.number != l.ticket.number) = s.waiting :=
      List.filter_eq_self.2 fun w hw => bne_iff_ne.2 (hnot w hw)
    have hgives : s₀.Gives ending := by
      unfold Gives catalog at hgives ⊢
      rwa [h.continues.fixture, h.continues.failing] at hgives
    rw [hstart]
    refine ⟨_, (h.calls calls).finish hbase hl (List.subset_cons_self ..) ?_ hgives⟩
    rw [hfilter]
    exact List.perm_middle.symm
  · rw [hstart]
    have hclock : s.clock = s₀.clock := h.clock (List.cons_ne_nil l todo)
    refine ⟨ends, h.form, h.ended, { h.continues with }, fun _ => hclock, h.gives, ?_,
      fun w hw => ?_, fun l' hl' => h.todo l' (.tail _ hl')⟩
    · simpa [await, numbersOf] using h.parts
    · rcases List.mem_append.1 hw with hold | hnew
      · exact h.waiting w hold
      · rw [List.mem_singleton.1 hnew]
        refine ⟨hl, fun hungated => ?_⟩
        obtain ⟨hlatency, hwait⟩ := hwait (h.continues.gated.trans hungated)
        rw [h.continues.fixture] at hlatency hwait
        rw [hclock] at hwait
        refine ⟨hlatency, hwait, ?_⟩
        show s.timeout.map s.clock.add = _
        rw [h.continues.timeout, hclock]

/-- All lookups that are to start end or wait. -/
theorem starts (hbase : base.resolver.Filling disabled m) (h : Loads base s₀ todo ends s) :
    ∃ ends', Loads base s₀ [] ends' (todo.foldl Session.start s) := by
  induction todo generalizing s ends with
  | nil => exact ⟨ends, h⟩
  | cons l rest ih =>
    obtain ⟨ends', hstart⟩ := h.start hbase
    exact ih hstart

/-- Once all lookups have started none is left to start. -/
theorem startAll_eq (hbase : base.resolver.Filling disabled m) (h : Loads base s₀ [] ends s) :
    s.startAll = s := by
  have hnone : s.unstarted = [] := by
    refine List.filter_eq_nil_iff.2 fun l hl => ?_
    obtain ⟨hin, hnot⟩ := (h.mem_inFlight hbase).1 hl
    have hmem := h.parts.symm.subset (List.mem_map_of_mem hin)
    rw [List.map_nil, List.append_nil] at hmem
    obtain ⟨w, hw, hnumber⟩ := List.mem_map.1 ((List.mem_append.1 hmem).resolve_left hnot)
    simp only [hasStarted, Bool.not_eq_true, Bool.not_eq_false', List.any_eq_true, beq_iff_eq]
    exact ⟨w, hw, hnumber⟩
  rw [startAll, hnone]
  rfl

/-- The numbers of the lookups that wait are distinct. -/
theorem nodup_waiting (hbase : base.resolver.Filling disabled m)
    (h : Loads base s₀ todo ends s) : (numbersOf s.waiting).Nodup :=
  (List.nodup_append.1 (List.nodup_append.1 (h.nodup hbase)).2.1).1

/-- A lookup that waits ends, and the others go on waiting. -/
theorem ring (hbase : base.resolver.Filling disabled m) (h : Loads base s₀ [] ends s) {w : Waiting}
    (hw : w ∈ s.waiting) :
    (∃ ends', Loads base s₀ [] ends' (s.ring w)) ∧ (s.ring w).waiting =
      s.waiting.filter (·.lookup.ticket.number != w.lookup.ticket.number) := by
  obtain ⟨ending, hgives, hring⟩ := s.ring_eq w
  have hgives : s₀.Gives ending := by
    unfold Gives catalog at hgives ⊢
    rwa [h.continues.fixture, h.continues.failing] at hgives
  have hfilter : numbersOf (s.waiting.filter
      (·.lookup.ticket.number != w.lookup.ticket.number)) =
        (numbersOf s.waiting).erase w.lookup.ticket.number := by
    rw [(h.nodup_waiting hbase).erase_eq_filter, numbersOf, numbersOf, List.filter_map]
    rfl
  have hmem : w.lookup.ticket.number ∈ numbersOf s.waiting := List.mem_map_of_mem hw
  rw [hring]
  refine ⟨⟨_, h.finish hbase (h.waiting w hw).1 (List.Subset.refl _) ?_ hgives⟩, rfl⟩
  rw [hfilter, List.map_nil, List.append_nil, List.append_nil]
  exact (List.perm_cons_erase hmem).symm

/-- Some lookups that wait end, and the others go on waiting. -/
theorem rings (hbase : base.resolver.Filling disabled m) (h : Loads base s₀ [] ends s)
    {ws : List Waiting} (hws : ∀ w ∈ ws, w ∈ s.waiting) (hnodup : (numbersOf ws).Nodup) :
    (∃ ends', Loads base s₀ [] ends' (ws.foldl Session.ring s)) ∧
      ∀ w ∈ (ws.foldl Session.ring s).waiting,
        w ∈ s.waiting ∧ w.lookup.ticket.number ∉ numbersOf ws := by
  induction ws generalizing s ends with
  | nil => exact ⟨⟨ends, h⟩, fun w hw => ⟨hw, List.not_mem_nil⟩⟩
  | cons w rest ih =>
    obtain ⟨hnot, hnodup⟩ := List.nodup_cons.1 hnodup
    obtain ⟨⟨ends', hring⟩, hwaiting⟩ := h.ring hbase (hws w (.head _))
    obtain ⟨hrest, hleft⟩ := ih hring (fun w' hw' => by
      rw [hwaiting]
      refine List.mem_filter.2 ⟨hws w' (.tail _ hw'), bne_iff_ne.2 fun heq => hnot ?_⟩
      exact List.mem_map.2 ⟨w', hw', heq⟩) hnodup
    refine ⟨hrest, fun w' hw' => ?_⟩
    obtain ⟨hbefore, hlater⟩ := hleft w' hw'
    rw [hwaiting] at hbefore
    obtain ⟨hbefore, hne⟩ := List.mem_filter.1 hbefore
    exact ⟨hbefore, fun hmem => (List.mem_cons.1 hmem).elim (bne_iff_ne.1 hne) hlater⟩

end Loads

/-- Whether something happens to a started lookup now. -/
def comes (s : Session) (w : Waiting) : Bool :=
  (Waiting.moments w).any s.isDue

/-- There is an earliest moment just if there is one at all. -/
theorem isSome_earliest (moments : List Binary64) : (earliest moments).isSome = !moments.isEmpty := by
  cases moments <;> rfl

/-- The lookups that are due are those to which something happens now. -/
theorem due_perm (s : Session) : (s.due.map (·.2)).Perm (s.waiting.filter s.comes) := by
  have hmoments : ∀ w, (earliest ((Waiting.moments w).filter s.isDue)).isSome = s.comes w := by
    intro w
    rw [isSome_earliest, comes, Bool.eq_iff_iff]
    simp [List.filter_eq_nil_iff]
  have hall : ∀ ws : List Waiting, (ws.filterMap fun w =>
      (earliest ((Waiting.moments w).filter s.isDue)).map fun t => (t, w)).map (·.2) =
        ws.filter s.comes := by
    intro ws
    induction ws with
    | nil => rfl
    | cons w rest ih =>
      have hw := hmoments w
      cases hearliest : earliest ((Waiting.moments w).filter s.isDue) with
      | none =>
        rw [hearliest] at hw
        simp only [List.filterMap_cons, hearliest, List.filter_cons, ← hw, ih, Option.map_none]
        rfl
      | some t =>
        rw [hearliest] at hw
        simp only [List.filterMap_cons, hearliest, List.filter_cons, ← hw, Option.map_some,
          List.map_cons, ih]
        rfl
  rw [← hall]
  exact (List.mergeSort_perm ..).map _

namespace Loads

variable {disabled : List String} {m : Model} {base : Form} {s₀ s : Session}
  {ends : List (Nat × Ending)}

/-- What is due ends, and the lookups to which nothing happens go on waiting. -/
theorem ringAll (hbase : base.resolver.Filling disabled m) (h : Loads base s₀ [] ends s) :
    (∃ ends', Loads base s₀ [] ends' s.ringAll) ∧
      ∀ w ∈ s.ringAll.waiting, w ∈ s.waiting ∧ s.comes w = false := by
  have hfold : s.ringAll = (s.due.map (·.2)).foldl Session.ring s := List.foldl_map.symm
  have hdue : ∀ w ∈ s.due.map (·.2), w ∈ s.waiting := fun w hw =>
    (List.mem_filter.1 (s.due_perm.subset hw)).1
  have hnodup : (numbersOf (s.due.map (·.2))).Nodup := by
    refine (s.due_perm.map _).nodup_iff.2 ?_
    exact (h.nodup_waiting hbase).sublist (List.filter_sublist.map _)
  rw [hfold]
  obtain ⟨hloads, hleft⟩ := h.rings hbase hdue hnodup
  refine ⟨hloads, fun w hw => ?_⟩
  obtain ⟨hbefore, hnot⟩ := hleft w hw
  refine ⟨hbefore, Bool.eq_false_iff.2 fun hcomes => hnot ?_⟩
  exact List.mem_map_of_mem (s.due_perm.symm.subset (List.mem_filter.2 ⟨hbefore, hcomes⟩))

/-- Moving the clock ends lookups at most. -/
theorem moveTo (hbase : base.resolver.Filling disabled m) (h : Loads base s₀ [] ends s)
    (t : Binary64) : ∃ ends', Loads base s₀ [] ends' (s.moveTo t) := by
  have hclock : ∀ clock, Loads base s₀ [] ends { s with clock } := fun clock =>
    { h with continues := { h.continues with }, clock := fun hne => absurd rfl hne }
  exact ((hclock _).ringAll hbase).1

/-- Letting time pass ends lookups at most. -/
theorem runUntil (hbase : base.resolver.Filling disabled m) (stop : Session → Bool)
    (limit : Option Binary64) (n : Nat) (h : Loads base s₀ [] ends s) :
    ∃ ends', Loads base s₀ [] ends' (Session.runUntil stop limit n s) := by
  induction n generalizing s ends with
  | zero => exact ⟨ends, h⟩
  | succ n ih =>
    unfold Session.runUntil
    split
    · exact ⟨ends, h⟩
    · split
      · exact ⟨ends, h⟩
      · next t _ =>
        split
        · exact ⟨ends, h⟩
        · obtain ⟨ends', hmoved⟩ := h.moveTo hbase t
          exact ih hmoved

/-- Letting go of what has ended changes nothing else. -/
theorem letGo (h : Loads base s₀ [] ends s) : Loads base s₀ [] ends s.letGo :=
  { h with continues := { h.continues with } }

/-- Once all lookups have started, spinning ends what is due. -/
theorem spin (hbase : base.resolver.Filling disabled m) (h : Loads base s₀ [] ends s) :
    ∃ ends', Loads base s₀ [] ends' s.spin := by
  obtain ⟨ends', hrung⟩ := (h.ringAll hbase).1
  rw [Session.spin, h.startAll_eq hbase]
  exact ⟨ends', hrung.letGo⟩

/-- A session at rest has all lookups of its form to start. -/
theorem begin (hform : s.form = base) (hwaiting : s.waiting = []) :
    Loads base s base.resolver.inFlight [] s where
  form := hform
  ended := (List.append_nil _).symm
  continues := ⟨rfl, rfl, rfl, rfl⟩
  clock _ := rfl
  gives _ he := absurd he List.not_mem_nil
  parts := by
    rw [hwaiting]
    exact .refl _
  waiting w hw := by
    rw [hwaiting] at hw
    cases hw
  todo _ hl := hl

/-- A session at rest starts all lookups of its form and ends what is due. -/
theorem first_spin (hbase : base.resolver.Filling disabled m) (hform : s.form = base)
    (hwaiting : s.waiting = []) : ∃ ends, Loads base s [] ends s.spin := by
  have hunstarted : s.unstarted = base.resolver.inFlight := by
    rw [unstarted, hform]
    refine List.filter_eq_self.2 fun l _ => ?_
    rw [hasStarted, hwaiting]
    rfl
  obtain ⟨ends, hstarted⟩ := (begin hform hwaiting).starts hbase
  rw [← hunstarted] at hstarted
  obtain ⟨ends', hrung⟩ := (hstarted.ringAll hbase).1
  exact ⟨ends', hrung.letGo⟩

/-- Waiting ends lookups of the form, and does nothing else to it. -/
theorem waitFor (hbase : base.resolver.Filling disabled m) (hform : s.form = base)
    (hwaiting : s.waiting = []) (stop : Session → Bool) :
    ∃ ends, Loads base s [] ends (s.waitFor stop) := by
  obtain ⟨ends, hspun⟩ := first_spin hbase hform hwaiting
  obtain ⟨ends', hran⟩ := hspun.runUntil hbase stop none s.spin.waiting.length
  exact hran.spin hbase

end Loads

/-! ## Every lookup ends -/

/-- The moments at which a lookup that starts now is given up or answered. -/
def appointments (s : Session) : List Binary64 :=
  (s.timeout.map s.clock.add).toList ++ [s.clock.add s.fixture.latency]

/-- The moments of a started lookup of a session without gates. -/
theorem Awaits.moments {s : Session} {w : Waiting} (h : s.Awaits w) (hungated : s.gated = false) :
    Waiting.moments w = s.appointments := by
  obtain ⟨-, hwait, hdeadline⟩ := h hungated
  rw [Waiting.moments, Waiting.moment?, hwait, hdeadline]
  rfl

namespace Loads

variable {disabled : List String} {m : Model} {base : Form} {s₀ s : Session}
  {ends : List (Nat × Ending)}

end Loads

end Session

end SyncForm
