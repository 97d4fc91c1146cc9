import SyncForm.Proofs.InFlight

/-!
# First loads of the task form

A first load issues the lookups that the fields of the table request, in order (`Template.prime_eq`),
and the tickets that it returns tell which. No name comes twice among them, so every counter moves on
by one at most, and it does so just if the first load has issued a lookup of that name
(`Template.generation?_prime`). Every lookup that a first load has issued is the latest of its name
(`Template.latest_prime`).
-/

namespace SyncForm

/-- The names of the triggers of some tickets. -/
def ticketNames (tickets : List Ticket) : List String :=
  tickets.map (·.trigger)

/-- The names of the triggers of some tickets, then of others. -/
theorem ticketNames_append (tickets others : List Ticket) :
    ticketNames (tickets ++ others) = ticketNames tickets ++ ticketNames others :=
  List.map_append

/-! ## Lookups issued in order -/

/-- A lookup to be issued. -/
structure LookupRequest where
  name : String
  fetch : Fetch
  compareKey : Option String

/-- Issues some lookups in order. -/
def Resolver.issueAll (r : Resolver) : List LookupRequest → Resolver × List Ticket
  | [] => (r, [])
  | q :: rest =>
    let (r, ticket) := r.reissue q.name q.fetch q.compareKey
    let (r, tickets) := r.issueAll rest
    (r, ticket :: tickets)

/-- Issuing lookups leaves the model. -/
theorem Resolver.model_issueAll (r : Resolver) (requests : List LookupRequest) :
    (r.issueAll requests).1.model = r.model := by
  induction requests generalizing r with
  | nil => rfl
  | cons q rest ih => exact ih (r.reissue q.name q.fetch q.compareKey).1

/-- Some lookups are issued, then others. -/
theorem Resolver.issueAll_append (r : Resolver) (requests others : List LookupRequest) :
    r.issueAll (requests ++ others) = (((r.issueAll requests).1.issueAll others).1,
      (r.issueAll requests).2 ++ ((r.issueAll requests).1.issueAll others).2) := by
  induction requests generalizing r with
  | nil => rfl
  | cons q rest ih =>
    simp only [List.cons_append, issueAll, ih (r.reissue q.name q.fetch q.compareKey).1]

/-- The tickets of issued lookups have the names that were requested. -/
theorem Resolver.ticketNames_issueAll (r : Resolver) (requests : List LookupRequest) :
    ticketNames (r.issueAll requests).2 = requests.map (·.name) := by
  induction requests generalizing r with
  | nil => rfl
  | cons q rest ih => exact congrArg _ (ih (r.reissue q.name q.fetch q.compareKey).1)

/-- Whether a request is made on a model: what it compares has a value. -/
def LookupRequest.isMade (m : Model) (q : LookupRequest) : Bool :=
  q.compareKey.all fun key => (m.get key).isTrue

namespace Plan

/-! ## The requests of the fields -/

/-- The request for the loader of a field, if it has one. -/
def loaderRequests (d : Descriptor) : List LookupRequest :=
  d.loader.toList.map fun t => ⟨loaderName d.key, t.fetch, none⟩

/-- The request for the lookup of a field, if that runs on first load. -/
def triggerRequests (d : Descriptor) : List LookupRequest :=
  (d.trigger.toList.filter (·.prime)).map fun t => ⟨d.key, t.fetch, some d.key⟩

/-- The requests that some fields make on first load. -/
def requests (m : Model) (fields : List Descriptor) : List LookupRequest :=
  (fields.flatMap fun d => loaderRequests d ++ triggerRequests d).filter (·.isMade m)

/-- The requests of a field come before those of the fields behind it. -/
theorem requests_cons (m : Model) (d : Descriptor) (rest : List Descriptor) :
    requests m (d :: rest) = (loaderRequests d).filter (·.isMade m) ++
      ((triggerRequests d).filter (·.isMade m) ++ requests m rest) := by
  simp only [requests, List.flatMap_cons, List.filter_append, List.append_assoc]

/-- The loader of a field is issued if it has one. -/
theorem primeLoader_eq (r : Resolver) (d : Descriptor) :
    primeLoader r d = r.issueAll ((loaderRequests d).filter (·.isMade r.model)) := by
  unfold primeLoader loaderRequests
  cases d.loader <;> rfl

/-- The lookup of a field is issued if it runs on first load and the field has a value. -/
theorem primeTrigger_eq (r : Resolver) (d : Descriptor)
    (hheld : ∀ t, d.trigger = some t → (r.model.value? d.key).isSome) :
    primeTrigger r d = ((r.issueAll ((triggerRequests d).filter (·.isMade r.model))).1,
      .ok (r.issueAll ((triggerRequests d).filter (·.isMade r.model))).2) := by
  unfold primeTrigger triggerRequests
  cases htrigger : d.trigger with
  | none => rfl
  | some t =>
    obtain ⟨value, hvalue⟩ := Option.isSome_iff_exists.1 (hheld t htrigger)
    have hmade : LookupRequest.isMade r.model ⟨d.key, t.fetch, some d.key⟩ = value.isTrue :=
      congrArg (fun v => (Option.getD v Value.null).isTrue) hvalue
    simp only [Option.toList_some, List.filter_cons, List.filter_nil, hvalue]
    cases t.prime with
    | false => rfl
    | true =>
      simp only [if_pos, List.map_cons, List.map_nil, List.filter_cons, List.filter_nil, hmade]
      cases value.isTrue <;> rfl

/-- A first load of fields whose keys are held issues their requests. -/
theorem primeFields_eq (fields : List Descriptor) (r : Resolver)
    (hheld : ∀ d ∈ fields, ∀ t, d.trigger = some t → (r.model.value? d.key).isSome) :
    primeFields r fields = ((r.issueAll (requests r.model fields)).1,
      .ok (r.issueAll (requests r.model fields)).2) := by
  induction fields generalizing r with
  | nil => rfl
  | cons d rest ih =>
    have hloader := primeLoader_eq r d
    have hmodel : (primeLoader r d).1.model = r.model := by
      rw [hloader, Resolver.model_issueAll]
    have htrigger := primeTrigger_eq (primeLoader r d).1 d fun t ht => by
      rw [hmodel]
      exact hheld d (.head _) t ht
    have hmodel' : (primeTrigger (primeLoader r d).1 d).1.model = r.model := by
      rw [htrigger, Resolver.model_issueAll, hmodel]
    have hrest := ih (primeTrigger (primeLoader r d).1 d).1 fun e he t ht => by
      rw [hmodel']
      exact hheld e (.tail _ he) t ht
    rw [hmodel'] at hrest
    rw [hmodel] at htrigger
    rw [htrigger, hloader] at hrest
    rw [hloader] at htrigger
    simp only [primeFields, hloader, htrigger, hrest, requests_cons, Resolver.issueAll_append,
      Except.map, List.append_assoc]

/-- The names of the lookups that a field may issue. -/
def lookupNames (d : Descriptor) : List String :=
  [loaderName d.key, d.key]

/-- What a field requests has the names of its lookups. -/
theorem names_fieldRequests (d : Descriptor) :
    ((loaderRequests d ++ triggerRequests d).map (·.name)).Sublist (lookupNames d) := by
  have hloader : ((loaderRequests d).map (·.name)).Sublist [loaderName d.key] := by
    unfold loaderRequests
    cases d.loader <;> simp
  have htrigger : ((triggerRequests d).map (·.name)).Sublist [d.key] := by
    unfold triggerRequests
    cases htrigger : d.trigger with
    | none => simp
    | some t => cases hprime : t.prime <;> simp [hprime]
  rw [List.map_append]
  exact hloader.append htrigger

/-- The requests of some fields name their lookups in order. -/
theorem names_requests (m : Model) (fields : List Descriptor) :
    ((requests m fields).map (·.name)).Sublist (fields.flatMap lookupNames) := by
  have hall : ((fields.flatMap fun d => loaderRequests d ++ triggerRequests d).map (·.name)).Sublist
      (fields.flatMap lookupNames) := by
    rw [List.map_flatMap]
    induction fields with
    | nil => exact List.Sublist.refl _
    | cons d rest ih => exact (names_fieldRequests d).append ih
  exact (List.filter_sublist.map _).trans hall

/-- A loader is requested on every model. -/
theorem loaderName_mem_requests (m : Model) {fields : List Descriptor} {d : Descriptor}
    (hd : d ∈ fields) (hloader : d.loader.isSome = true) :
    loaderName d.key ∈ (requests m fields).map (·.name) := by
  obtain ⟨loader, hloader⟩ := Option.isSome_iff_exists.1 hloader
  have hrequest : (⟨loaderName d.key, loader.fetch, none⟩ : LookupRequest) ∈ loaderRequests d := by
    simp [loaderRequests, hloader]
  have hmem : (⟨loaderName d.key, loader.fetch, none⟩ : LookupRequest) ∈ requests m fields := by
    refine List.mem_filter.2 ⟨List.mem_flatMap.2 ⟨d, hd, ?_⟩, rfl⟩
    exact List.mem_append_left _ hrequest
  exact List.mem_map_of_mem hmem

/-! ## The counters -/

/-- What issuing some lookups does to the counters: each moves on once for every ticket. -/
def Counts (r r' : Resolver) (tickets : List Ticket) : Prop :=
  ∀ name, r'.generation? name = (r.generation? name).map (· + (ticketNames tickets).count name)

/-- Counts add up. -/
theorem Counts.trans {r₁ r₂ r₃ : Resolver} {tickets tickets' : List Ticket}
    (h : Counts r₁ r₂ tickets) (h' : Counts r₂ r₃ tickets') :
    Counts r₁ r₃ (tickets ++ tickets') := by
  intro name
  rw [h' name, h name, Option.map_map, ticketNames_append, List.count_append]
  congr 1
  funext n
  exact Nat.add_assoc ..

/-- Nothing issued counts nothing. -/
theorem Counts.nil (r : Resolver) : Counts r r [] :=
  fun _ => (Option.map_id' ..).symm

/-- One lookup issued counts once. -/
theorem counts_reissue (r : Resolver) (name : String) (fetch : Fetch)
    (compareKey : Option String) :
    Counts r (r.reissue name fetch compareKey).1 [(r.reissue name fetch compareKey).2] := by
  intro other
  rw [Resolver.generation?_reissue]
  congr 1
  funext n
  have hname : (r.reissue name fetch compareKey).2.trigger = name := rfl
  simp [ticketNames, hname, List.count_singleton]

/-- Lookups issued one after the other count once each. -/
theorem counts_issueAll (r : Resolver) (requests : List LookupRequest) :
    Counts r (r.issueAll requests).1 (r.issueAll requests).2 := by
  induction requests generalizing r with
  | nil => exact .nil r
  | cons q rest ih =>
    exact (counts_reissue r q.name q.fetch q.compareKey).trans
      (ih (r.reissue q.name q.fetch q.compareKey).1)

end Plan

namespace Template

variable (disabled : List String) (react : Reaction) {r : Resolver}

/-- No two lookups of the task form have the same name. -/
theorem nodup_lookupNames :
    ((plan disabled react).descriptors.flatMap Plan.lookupNames).Nodup := by
  have hnames : (plan disabled react).descriptors.flatMap Plan.lookupNames =
      (plan [] Reaction.none).descriptors.flatMap Plan.lookupNames := rfl
  rw [hnames]
  decide +kernel

/-- The types have loaders. -/
theorem exists_typeField (side : Side) :
    ∃ d ∈ (plan disabled react).descriptors, d.key = side.typeKey ∧ d.loader.isSome = true := by
  have hfind : ∃ d, (plan disabled react).find? side.typeKey = some d ∧ d.loader.isSome = true := by
    cases side <;> exact ⟨_, rfl, rfl⟩
  obtain ⟨d, hd, hloader⟩ := hfind
  exact ⟨d, List.mem_of_find?_eq_some hd, by simpa using List.find?_some hd, hloader⟩

/-- A first load of the task form issues what its fields request. -/
theorem prime_eq (h : r.Tracked) :
    (plan disabled react).prime r true =
      ((r.issueAll (Plan.requests r.model (taskForm disabled))).1,
        .ok (r.issueAll (Plan.requests r.model (taskForm disabled))).2) := by
  have hheld : ∀ d ∈ taskForm disabled, ∀ t, d.trigger = some t →
      (r.model.value? d.key).isSome := by
    intro d hd t ht
    obtain ⟨side, rung, hkey, -⟩ := exists_rung disabled hd ht
    rw [hkey]
    exact h.held side rung
  unfold Plan.prime
  rw [if_neg (by simp [h.ready]), if_pos rfl]
  exact Plan.primeFields_eq (taskForm disabled) r hheld

/-- A first load succeeds while a loop runs; its tickets name each lookup that it issued once, the
loaders of both types among them. -/
theorem generation?_prime (h : r.Tracked) :
    ∃ tickets, ((plan disabled react).prime r true).2 = .ok tickets ∧
      (∀ name, ((plan disabled react).prime r true).1.generation? name =
        (r.generation? name).map (· + if name ∈ ticketNames tickets then 1 else 0)) ∧
      ∀ side : Side, loaderName side.typeKey ∈ ticketNames tickets := by
  have hnames := r.ticketNames_issueAll (Plan.requests r.model (taskForm disabled))
  have hnodup : ((Plan.requests r.model (taskForm disabled)).map (·.name)).Nodup :=
    (Plan.names_requests r.model _).nodup (nodup_lookupNames disabled react)
  rw [prime_eq disabled react h]
  refine ⟨_, rfl, fun name => ?_, fun side => ?_⟩
  · have hcounts := Plan.counts_issueAll r (Plan.requests r.model (taskForm disabled)) name
    rwa [hnames, hnodup.count, ← hnames] at hcounts
  · obtain ⟨d, hd, hkey, hloader⟩ := exists_typeField disabled react side
    rw [hnames, ← hkey]
    exact Plan.loaderName_mem_requests r.model hd hloader

/-- A first load is refused where no loop runs lookups. -/
theorem prime_idle (h : r.Tracked) : ((plan disabled react).prime r false).1 = r := by
  unfold Plan.prime
  rw [if_neg (by simp [h.ready])]
  rfl

/-- Every lookup that a first load has issued is the latest of its name. -/
theorem latest_prime (h : r.Tracked) {running : Bool} {l : Lookup}
    (hl : l ∈ ((plan disabled react).prime r running).1.inFlight)
    (hnew : r.issued ≤ l.ticket.number) :
    ((plan disabled react).prime r running).1.Latest l := by
  cases running with
  | false =>
    rw [prime_idle disabled react h] at hl
    exact absurd (h.numbered l hl) (by omega)
  | true =>
    -- The counter of the lookup stood below its generation before, and it moved on by one at most.
    have hissues := issues_prime disabled react h true
    obtain ⟨tickets, -, hcounts, -⟩ := generation?_prime disabled react h
    rcases hissues.newer l hl with hold | hnewer
    · exact absurd (h.numbered l hold) (by omega)
    · obtain ⟨n, hn⟩ := Option.isSome_iff_exists.1 (h.counted_known (hissues.tracked.known l hl))
      have hlt := hnewer n hn
      have hcount : ∃ k, k ≤ 1 ∧
          ((plan disabled react).prime r true).1.generation? l.ticket.trigger = some (n + k) := by
        rw [hcounts, hn]
        refine ⟨_, ?_, rfl⟩
        split <;> omega
      obtain ⟨k, hk, hcount⟩ := hcount
      have hle := hissues.tracked.dated l hl _ hcount
      rw [Resolver.Latest, hcount]
      exact congrArg some (by omega)

end Template

end SyncForm
