import SyncForm.Resolver.Cascade

/-!
# The resolver

A resolver binds a plan to the model of a form. A change of a field is written to the model and
announced, every field that depends on it is evaluated anew, and where the field is a trigger its
cascade is run and a lookup is issued. A lookup carries the generation of its trigger and the value
it was issued for; when it is completed, its result is written back only if both are still those of
the resolver, so a lookup that was superseded meanwhile leaves no trace.

`Plan.change`, `Plan.prime` and `Plan.complete` are the steps of a resolver; each of them returns
the resolver reached, also where it ends in a fault.
-/

namespace SyncForm

/-- The handle on a lookup that was issued. -/
structure Ticket where
  number : Nat
  trigger : String
  value : Value
  generation : Nat

/-- A lookup under way. `compareKey` is the key whose value must not change meanwhile; the loader of
a field has none. -/
structure Lookup where
  ticket : Ticket
  fetch : Fetch
  snapshot : Snapshot
  compareKey : Option String

/-- How a lookup ended. -/
inductive LookupStatus where
  | applied
  /-- It was superseded before it was completed. -/
  | discarded
  | failed
  /-- There was nothing to fetch. -/
  | skipped
  deriving DecidableEq

/-- The written name of a status. -/
def LookupStatus.name : LookupStatus → String
  | applied => "applied"
  | discarded => "discarded"
  | failed => "failed"
  | skipped => "skipped"

/-- The end of a lookup; a failed one carries the report. -/
structure LookupOutcome where
  trigger : String
  value : Value
  status : LookupStatus
  error : Option Fault := none

/-- The state of a resolver. `issued` counts the lookups so far, `journal` lists what happened. -/
structure Resolver where
  model : Model
  facets : Assoc Facet := []
  generations : Assoc Nat := []
  inFlight : List Lookup := []
  issued : Nat := 0
  ready : Bool := false
  journal : List Event := []

/-- What a field offers to the rendering layer. -/
structure FieldView where
  visible : Bool
  choices : List Choice
  value : Value

/-- The name of the lookup that loads the choices of a field. -/
def loaderName (key : String) : String :=
  key ++ ":options"

/-- What stands before the last occurrence of a mark in a text, if the mark occurs. -/
def beforeLast (mark : List Char) : List Char → Option (List Char)
  | [] => none
  | c :: rest =>
    match beforeLast mark rest with
    | some head => some (c :: head)
    | none => if mark.isPrefixOf (c :: rest) then some [] else none

/-- The field that a loader of a given name fills. -/
def loadedField (name : String) : String :=
  match beforeLast ":options".toList name.toList with
  | some head => String.ofList head
  | none => name

namespace Resolver

/-- The report on a resolver that is used too early. -/
def notReady : Fault :=
  .report (Fault.configuration "Resolver used before initialize()" none .null {})

/-- The report on a key that the model does not hold. -/
def unknownField (key : String) : Fault :=
  .report (Fault.configuration "Unknown field" (some key) .null {})

/-- The report on a lookup that nothing would run. -/
def notRunning (key : Option String) : Fault :=
  .report (Fault.configuration "Lookups can only be issued from a running event loop" key .null
    { suggestion := some
        "Change trigger fields from async code, e.g. inside asyncio.run()." })

/-- Notes what happened. -/
def log (r : Resolver) (event : Event) : Resolver :=
  { r with journal := r.journal ++ [event] }

/-- Whether a lookup no longer counts: its trigger has moved on to another generation or value. -/
def isStale (r : Resolver) (l : Lookup) : Bool :=
  Assoc.valueOf? r.generations l.ticket.trigger != some l.ticket.generation ||
    (match l.compareKey with
      | some key => !(r.model.get key).equals l.ticket.value
      | none => false)

/-- Counts a generation of a lookup up. -/
def supersede (r : Resolver) (key : String) : Resolver :=
  { r with generations := Assoc.adjust r.generations key (· + 1) }

/-- Issues a lookup for the current values. -/
def issue (r : Resolver) (name : String) (fetch : Fetch) (compareKey : Option String) :
    Resolver × Ticket :=
  let ticket : Ticket := {
    number := r.issued
    trigger := name
    value := (compareKey.map r.model.get).getD .null
    generation := (Assoc.valueOf? r.generations name).getD 0 }
  let lookup : Lookup := { ticket, fetch, snapshot := r.model.snapshot, compareKey }
  ({ r with inFlight := r.inFlight ++ [lookup], issued := r.issued + 1 }.log
    (.issued name ticket.value), ticket)

/-- Replaces the choices of a field. -/
def offer (r : Resolver) (field : String) (choices : List Choice) : Resolver :=
  { r with facets := Assoc.adjust r.facets field fun f => { f with choices } }

/-- Replaces the choices of several fields in order, up to the first unknown one. -/
def offerAll (r : Resolver) : Assoc (List Choice) → Resolver × Except Fault Unit
  | [] => (r, .ok ())
  | (field, choices) :: rest =>
    if Assoc.holds r.facets field then (r.offer field choices).offerAll rest
    else (r, .error (.missingKey field))

/-- The state of a field. -/
def facet (r : Resolver) (key : String) : Except Fault Facet :=
  if r.ready then
    match Assoc.valueOf? r.facets key with
    | some facet => .ok facet
    | none => .error (.missingKey key)
  else .error notReady

/-- The fields shown, in order. -/
def visibleKeys (r : Resolver) : Except Fault (List String) :=
  if r.ready then .ok ((r.facets.filter (·.2.visible)).map (·.1)) else .error notReady

end Resolver

namespace Plan

/-- The generations before any lookup: one counter for each lookup of the table. -/
def generations (plan : Plan) : Assoc Nat :=
  plan.descriptors.foldl
    (fun counters d =>
      let counters := if d.trigger.isSome then Assoc.put counters d.key 0 else counters
      if d.loader.isSome then Assoc.put counters (loaderName d.key) 0 else counters) []

/-- A resolver that is not ready yet. -/
def start (plan : Plan) (model : Model) : Resolver :=
  { model, generations := plan.generations }

variable (plan : Plan)

/-- Seeds the defaults of all fields, checks the table and evaluates every field once. -/
def setUp (r : Resolver) : Resolver × Except Fault Unit :=
  let model := plan.ownedKeys.foldl (fun m key => m.ensure key (plan.usual key)) r.model
  let r := { r with model }
  let fields := plan.descriptors.map (·.key)
  match plan.descriptors.forM fun d => d.checkDeclarations fields model with
  | .error fault => (r, .error fault)
  | .ok () =>
    let facets : Assoc Facet := plan.descriptors.map fun d => (d.key, d.initialFacet model)
    ({ r with facets, ready := true }.log (.initialized plan.descriptors.length), .ok ())

/-- Tells the form and the subscribers that a key was written. -/
def announce (r : Resolver) (key : String) : Resolver :=
  let (model, events) := plan.react key r.model
  { r with model, journal := r.journal ++ events }.log (.wrote key (model.get key))

/-- The state of a field evaluated anew if it depends on a key. -/
def refreshed (m : Model) (key field : String) (facet : Facet) : Facet :=
  match plan.find? field with
  | some d => if d.dependsOn.contains key then d.refresh m facet else facet
  | none => facet

/-- Evaluates every field anew that depends on a key. -/
def refresh (r : Resolver) (key : String) : Resolver :=
  { r with facets := r.facets.map fun (field, facet) =>
      (field, plan.refreshed r.model key field facet) }

/-- Announces a written key and evaluates what depends on it. -/
def propagate (r : Resolver) (key : String) : Resolver :=
  plan.refresh (plan.announce r key) key

/-- Runs a step of a cascade. -/
def runStep (r : Resolver) : CascadeStep → Resolver
  | .empty field => r.offer field []
  | .reset key => plan.propagate { r with model := r.model.clear key (plan.usual key) } key
  | .supersede key => r.supersede key

/-- Writes a value of the user and runs what follows from it. If the field is a trigger, its lookup
is issued, which needs a running loop. -/
def change (r : Resolver) (key : String) (value : Value) (running : Bool) :
    Resolver × Except Fault (Option Ticket) :=
  if !r.ready then (r, .error Resolver.notReady)
  else if !r.model.holds key then (r, .error (Resolver.unknownField key))
  else
    let written := plan.propagate { r with model := r.model.setUser key value } key
    match plan.trigger? key with
    | none => (written, .ok none)
    | some trigger =>
      if running then
        let r := (plan.cascade key trigger).foldl plan.runStep written
        let (r, ticket) := (r.supersede key).issue key trigger.fetch (some key)
        (r, .ok (some ticket))
      else (r, .error (Resolver.notRunning (some key)))

/-- Issues the loader of a field, if it has one. -/
def primeLoader (r : Resolver) (d : Descriptor) : Resolver × List Ticket :=
  match d.loader with
  | none => (r, [])
  | some loader =>
    let name := loaderName d.key
    let (r, ticket) := (r.supersede name).issue name loader.fetch none
    (r, [ticket])

/-- Issues the lookup of a field, if it runs on first load and the field has a value. -/
def primeTrigger (r : Resolver) (d : Descriptor) : Resolver × Except Fault (List Ticket) :=
  match d.trigger with
  | none => (r, .ok [])
  | some trigger =>
    if trigger.prime then
      match r.model.value? d.key with
      | none => (r, .error (.missingKey d.key))
      | some value =>
        if value.isTrue then
          let (r, ticket) := (r.supersede d.key).issue d.key trigger.fetch (some d.key)
          (r, .ok [ticket])
        else (r, .ok [])
    else (r, .ok [])

/-- Issues the lookups of several fields, up to the first fault. -/
def primeFields (r : Resolver) : List Descriptor → Resolver × Except Fault (List Ticket)
  | [] => (r, .ok [])
  | d :: rest =>
    let (r, loaded) := primeLoader r d
    match primeTrigger r d with
    | (r, .error fault) => (r, .error fault)
    | (r, .ok triggered) =>
      let (r, others) := primeFields r rest
      (r, others.map (loaded ++ triggered ++ ·))

/-- Issues every loader and every lookup that runs on first load, clearing nothing. -/
def prime (r : Resolver) (running : Bool) : Resolver × Except Fault (List Ticket) :=
  if !r.ready then (r, .error Resolver.notReady)
  else if running then primeFields r plan.descriptors
  else (r, .error (Resolver.notRunning none))

/-- Writes the result of a lookup back: choices first, then values. -/
def apply (r : Resolver) (result : LookupResult) : Resolver × Except Fault Unit :=
  match r.offerAll result.choices with
  | (r, .error fault) => (r, .error fault)
  | (r, .ok ()) =>
    let model := result.values.foldl (fun m (key, value) => m.setLookup key value) r.model
    ((Assoc.keys result.values).foldl plan.propagate { r with model }, .ok ())

/-- Marks the field of a failed lookup and reports the failure. -/
def fail (r : Resolver) (l : Lookup) (cause : Fault) : Resolver × LookupOutcome :=
  let name := l.ticket.trigger
  let value := l.ticket.value
  let mark := if cause.text.isEmpty then cause.family else cause.text
  let owner := l.compareKey.getD (loadedField name)
  let model := r.model.adjust owner fun e => { e with lookupError := some mark }
  let report := Fault.lookup ("Lookup for " ++ name ++ " failed") name value (some cause) {}
  ({ r with model }.log (.failed name value cause.text),
    { trigger := name, value, status := .failed, error := some (.report report) })

/-- Completes a lookup with what its fetch came to: a result, nothing to fetch, or a fault. A lookup
that no longer counts is discarded whatever it came to. -/
def complete (r : Resolver) (l : Lookup) (answer : Except Fault (Option LookupResult)) :
    Resolver × Except Fault LookupOutcome :=
  let r := { r with inFlight := r.inFlight.filter (·.ticket.number != l.ticket.number) }
  let name := l.ticket.trigger
  let value := l.ticket.value
  let outcome (status : LookupStatus) : LookupOutcome := { trigger := name, value, status }
  match answer with
  | .error cause =>
    if r.isStale l then (r.log (.discardedFailure name value), .ok (outcome .discarded))
    else
      let (r, failed) := fail r l cause
      (r, .ok failed)
  | .ok result =>
    if r.isStale l then (r.log (.discarded name value), .ok (outcome .discarded))
    else
      match result with
      | none => (r, .ok (outcome .skipped))
      | some result =>
        match plan.apply r result with
        | (r, .error fault) => (r, .error fault)
        | (r, .ok ()) => (r.log (.applied name value), .ok (outcome .applied))

/-- What a field offers to the rendering layer. The mapping field shows both of its lists. -/
def view (r : Resolver) (key : String) : Except Fault FieldView :=
  if !r.ready then .error Resolver.notReady
  else
    match plan.find? key with
    | none => .error (.missingKey key)
    | some d => do
      let facet ← r.facet key
      let value :=
        match d.modelKeys with
        | [] => .null
        | [key] => r.model.get key
        | keys => .list (keys.map r.model.get)
      return { visible := facet.visible, choices := facet.choices, value }

end Plan

end SyncForm
