import SyncForm.Catalog.Fixture
import SyncForm.Form

/-!
# Sessions

A session runs the lookups of a form against a fixture, in a time of its own. A lookup that was
issued starts when the session lets it; then it waits for a gate, where the fixture is gated, or for
the latency of the fixture, and is completed with the answer the fixture gives at that moment. A
lookup may have a deadline, counted from its start, and a deadline comes before an answer at the
same time.

Lookups start in the order in which they were issued. `Session.startAll` starts what can start,
`Session.runUntil` lets time pass from one appointment to the next. A lookup that has ended is held
until the session comes round to letting go of it (`Session.letGo`); waiting for all lookups takes
in those that are held.
-/

namespace SyncForm

/-- What a started lookup waits for. -/
inductive Wait where
  | gate (number : Nat)
  | time (moment : Binary64)

/-- A lookup that has started: what it waits for and when it is given up. -/
structure Waiting where
  lookup : Lookup
  wait : Wait
  deadline : Option Binary64

/-- A form at work. `calls` lists the questions put to the fixture, `ended` how the lookups ended,
by the number of their ticket, and `held` the numbers of those that have ended and are still
held. -/
structure Session where
  form : Form
  fixture : Fixture
  timeout : Option Binary64
  gated : Bool
  failing : List String := []
  clock : Binary64 := Binary64.zero
  waiting : List Waiting := []
  calls : List Query := []
  ended : List (Nat × Except Fault LookupOutcome) := []
  held : List Nat := []

/-- The resolution of the clock: what is due within it is due now. -/
def clockResolution : Binary64 := Binary64.ofRatio false 1 1000000000

namespace Session

/-- What the fixture answers to a lookup now. -/
def answer (s : Session) (l : Lookup) : Except Fault (Option LookupResult) :=
  l.fetch.run l.snapshot (s.fixture.toCatalog.without s.failing)

/-- Completes a lookup, which is held from then on. -/
def finish (s : Session) (l : Lookup) (answer : Except Fault (Option LookupResult)) : Session :=
  let (form, outcome) := s.form.complete l answer
  { s with
    form
    waiting := s.waiting.filter (·.lookup.ticket.number != l.ticket.number)
    ended := s.ended ++ [(l.ticket.number, outcome)]
    held := s.held ++ [l.ticket.number] }

/-- Lets go of the lookups that have ended. -/
def letGo (s : Session) : Session :=
  { s with held := [] }

/-- Lets a lookup wait. -/
def await (s : Session) (l : Lookup) (wait : Wait) : Session :=
  { s with waiting := s.waiting ++ [{ lookup := l, wait, deadline := s.timeout.map s.clock.add }] }

/-- Starts a lookup. One without a question ends at once, as does one without time. -/
def start (s : Session) (l : Lookup) : Session :=
  if s.timeout.any fun t => !Binary64.zero.lt t then s.finish l (.error .timedOut)
  else
    match l.fetch.query? l.snapshot with
    | none => s.finish l (.ok none)
    | some query =>
      let number := s.calls.length
      let s := { s with calls := s.calls ++ [query] }
      if s.gated then s.await l (.gate number)
      else if s.fixture.latency.isZero then s.finish l (s.answer l)
      else s.await l (.time (s.clock.add s.fixture.latency))

/-- Whether a lookup has started. -/
def hasStarted (s : Session) (l : Lookup) : Bool :=
  s.waiting.any (·.lookup.ticket.number == l.ticket.number)

/-- The lookups that have not started. -/
def unstarted (s : Session) : List Lookup :=
  s.form.resolver.inFlight.filter (!s.hasStarted ·)

/-- Starts the lookups that have not started. -/
def startAll (s : Session) : Session :=
  s.unstarted.foldl start s

/-- The moment a started lookup waits for, if any but a gate. -/
def Waiting.moment? (w : Waiting) : Option Binary64 :=
  match w.wait with
  | .gate _ => none
  | .time t => some t

/-- The earlier of two moments. -/
def earlier (a b : Binary64) : Binary64 :=
  if b.lt a then b else a

/-- The earliest of some moments. -/
def earliest : List Binary64 → Option Binary64
  | [] => none
  | t :: rest => some (rest.foldl earlier t)

/-- The moments at which something happens to a started lookup. -/
def Waiting.moments (w : Waiting) : List Binary64 :=
  w.deadline.toList ++ (moment? w).toList

/-- The next moment at which something happens. -/
def next? (s : Session) : Option Binary64 :=
  earliest (s.waiting.flatMap Waiting.moments)

/-- Whether a moment is due. -/
def isDue (s : Session) (t : Binary64) : Bool :=
  t.lt (s.clock.add clockResolution)

/-- The started lookups to which something happens now, in the order of the moments. -/
def due (s : Session) : List (Binary64 × Waiting) :=
  (s.waiting.filterMap fun w =>
    (earliest ((Waiting.moments w).filter s.isDue)).map fun t => (t, w)).mergeSort
      fun a b => !b.1.lt a.1

/-- Ends a lookup that is due: its deadline comes first. -/
def ring (s : Session) (w : Waiting) : Session :=
  if w.deadline.any s.isDue then s.finish w.lookup (.error .timedOut)
  else s.finish w.lookup (s.answer w.lookup)

/-- Ends the lookups that are due. -/
def ringAll (s : Session) : Session :=
  s.due.foldl (fun s tw => s.ring tw.2) s

/-- Starts what can start and ends what is due, without letting time pass, and comes round to
letting go of what has ended. -/
def spin (s : Session) : Session :=
  s.startAll.ringAll.letGo

/-- Moves the clock forward and ends what is due. -/
def moveTo (s : Session) (t : Binary64) : Session :=
  { s with clock := if s.clock.lt t then t else s.clock }.ringAll

/-- Lets time pass, a number of moments at most, up to a limit or until a condition holds. -/
def runUntil (stop : Session → Bool) (limit : Option Binary64) : Nat → Session → Session
  | 0, s => s
  | n + 1, s =>
    if stop s then s
    else
      match s.next? with
      | none => s
      | some t => if limit.any (·.lt t) then s else runUntil stop limit n (s.moveTo t)

/-- Lets time pass until a condition holds or nothing is to come. Every moment ends a lookup, so the
number of lookups bounds the moments. -/
def waitFor (s : Session) (stop : Session → Bool) : Session :=
  let s := s.spin
  (runUntil stop none s.waiting.length s).spin

/-- Lets some time pass. -/
def advance (s : Session) (seconds : Binary64) : Session :=
  let target := s.clock.add seconds
  let s := s.spin
  ((runUntil (fun _ => false) (some target) s.waiting.length s).moveTo target).spin

/-- Ends the lookup that waits for a gate. -/
def openGate (s : Session) (number : Nat) : Session :=
  match s.waiting.find? fun w => match w.wait with
      | .gate n => n == number
      | .time _ => false with
  | some w => s.finish w.lookup (s.answer w.lookup)
  | none => s

/-- Opens some gates, in order; without a list, all of them. A gate is made by a call, and gates not
made yet are passed over. -/
def release (s : Session) (numbers : Option (List Nat)) : Session :=
  let made := s.calls.length
  let numbers := ((numbers.getD (List.range made)).filter (· < made))
  (numbers.foldl openGate s.startAll).ringAll.letGo

/-- How a lookup ended. -/
def outcome? (s : Session) (number : Nat) : Option (Except Fault LookupOutcome) :=
  (s.ended.find? (·.1 == number)).map (·.2)

/-- Whether a lookup has ended. -/
def isDone (s : Session) (number : Nat) : Bool :=
  (s.outcome? number).isSome

/-- The outcomes of some lookups, or the first fault among those that ended in one. -/
def outcomes (s : Session) (numbers : List Nat) : Except Fault (List LookupOutcome) :=
  let ended := s.ended.filter fun e => numbers.contains e.1
  match ended.findSome? fun e => match e.2 with
      | .error fault => some fault
      | .ok _ => none with
  | some fault => .error fault
  | none =>
    .ok (numbers.filterMap fun n => match s.outcome? n with
      | some (.ok outcome) => some outcome
      | _ => none)

/-- Waits until no lookup is in flight, or one of them ends in a fault. Those that are held are
waited for too. -/
def settle (s : Session) : Session × Except Fault (List LookupOutcome) :=
  let numbers := s.held ++ s.form.resolver.inFlight.map (·.ticket.number)
  let crashed (s : Session) : Bool := (s.outcomes numbers).toOption.isNone
  let s := s.waitFor fun s => crashed s || numbers.all s.isDone
  (s, s.outcomes numbers)

/-- Waits for a lookup; a failed one is a fault. There is no outcome if nothing will end it. -/
def result (s : Session) (number : Nat) : Session × Option (Except Fault LookupOutcome) :=
  let s := s.waitFor (·.isDone number)
  let outcome := (s.outcome? number).map fun ended => do
    let outcome ← ended
    match outcome.error with
    | some fault => throw fault
    | none => return outcome
  (s, outcome)

/-- Runs an operation of the form. -/
def onForm {α : Type} (s : Session) (operation : Form → Form × α) : Session × α :=
  let (form, result) := operation s.form
  ({ s with form }, result)

/-- Fills the choices of all fields on first load and waits for them. -/
def load (s : Session) (running : Bool) : Session × Except Fault (List LookupOutcome) :=
  match s.onForm (·.prime running) with
  | (s, .error fault) => (s, .error fault)
  | (s, .ok _) =>
    match s.settle with
    | (s, .error fault) => (s, .error fault)
    | (s, .ok outcomes) =>
      let failed := (outcomes.filter (·.error.isSome)).map (·.trigger)
      let note (f : Form) : Form := { f with resolver := f.resolver.log (.loadFailed failed) }
      (if failed.isEmpty then s else { s with form := note s.form }, .ok outcomes)

end Session

end SyncForm
