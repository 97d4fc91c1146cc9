import SyncForm.Proofs.Completion

/-!
# The lookups in flight

A lookup in flight carries the generation of its trigger at the time it was issued. As long as it
is the latest of its trigger, nothing at its rung or above it has changed, so the snapshot that it
works on still shows the values of the model. `Resolver.Tracked` is the invariant that says so,
`Resolver.Tracked.advance` the one argument by which a step keeps it, and `Template.tracked_run`
the invariant of every run.
-/

namespace SyncForm

namespace Resolver

/-- A lookup is the latest of its trigger. -/
def Latest (r : Resolver) (l : Lookup) : Prop :=
  r.generation? l.ticket.trigger = some l.ticket.generation

/-- A lookup that compares a key counts if it is the latest and the key still has its value. -/
theorem isStale_eq_false {r : Resolver} {l : Lookup} {key : String}
    (hkey : l.compareKey = some key) :
    r.isStale l = false ↔ r.Latest l ∧ (r.model.get key).equals l.ticket.value = true := by
  simp [isStale, hkey, Latest, generation?]

/-- A lookup that compares no key counts if it is the latest. -/
theorem isStale_loader {r : Resolver} {l : Lookup} (hkey : l.compareKey = none) :
    r.isStale l = false ↔ r.Latest l := by
  simp [isStale, hkey, Latest, generation?]

/-- A lookup that counts is the latest of its trigger. -/
theorem latest_of_isStale {r : Resolver} {l : Lookup} (h : r.isStale l = false) : r.Latest l := by
  cases hkey : l.compareKey with
  | none => exact (isStale_loader hkey).1 h
  | some key => exact ((isStale_eq_false hkey).1 h).1

end Resolver

namespace Lookup

/-- The snapshot of a lookup shows what a model holds at a rung and above it. -/
def Faithful (l : Lookup) (m : Model) (side : Side) (rung : Rung) : Prop :=
  ∀ other, Rung.AtOrAbove side other side rung →
    Assoc.valueOf? l.snapshot (other.key side) = m.value? (other.key side)

/-- A faithful snapshot shows the value of a key at or above its rung. -/
theorem Faithful.get {l : Lookup} {m : Model} {side : Side} {rung : Rung}
    (h : l.Faithful m side rung) {other : Rung} (hother : other.depth ≤ rung.depth) :
    Snapshot.get l.snapshot (other.key side) = m.get (other.key side) :=
  congrArg (Option.getD · Value.null) (h other ⟨rfl, hother⟩)

/-- A lookup just issued. -/
structure Fresh (l : Lookup) (r : Resolver) : Prop where
  known : l.Known
  numbered : l.ticket.number < r.issued
  latest : r.Latest l
  faithful : ∀ side rung, l.OfRung side rung → l.Faithful r.model side rung

end Lookup

namespace Resolver

/-- All keys and counters of the chains are there, and the lookups in flight are accounted for. -/
structure Tracked (r : Resolver) : Prop where
  ready : r.ready = true
  held : ∀ side rung, (r.model.value? (Rung.key rung side)).isSome
  offers : ∀ side rung, (r.choices? (Rung.key rung side)).isSome
  counted : ∀ side rung, (r.generation? (Rung.key rung side)).isSome
  loaders : ∀ side : Side, (r.generation? (loaderName side.typeKey)).isSome
  known : ∀ l ∈ r.inFlight, l.Known
  numbered : ∀ l ∈ r.inFlight, l.ticket.number < r.issued
  distinct : r.inFlight.Pairwise fun l l' => l.ticket.number ≠ l'.ticket.number
  dated : ∀ l ∈ r.inFlight, ∀ n, r.generation? l.ticket.trigger = some n → l.ticket.generation ≤ n
  current : ∀ l ∈ r.inFlight, ∀ side rung, l.OfRung side rung → r.Latest l →
    l.Faithful r.model side rung

/-- A resolver goes on to another one: no counter goes back, and as long as the counter of a rung
stands still, so do the values at that rung and above it. -/
structure Advances (r r' : Resolver) : Prop where
  ready : r'.ready = r.ready
  held : r.model.Sub r'.model
  offers : ∀ side rung, (r'.choices? (Rung.key rung side)).isSome =
    (r.choices? (Rung.key rung side)).isSome
  later : ∀ name, ∃ k, r'.generation? name = (r.generation? name).map (· + k)
  kept : ∀ side rung, r'.generation? (Rung.key rung side) = r.generation? (Rung.key rung side) →
    ∀ other, Rung.AtOrAbove side other side rung →
      r'.model.value? (other.key side) = r.model.value? (other.key side)

/-- Counters that are there stay there. -/
theorem Advances.counted {r r' : Resolver} (h : r.Advances r') {name : String}
    (hname : (r.generation? name).isSome) : (r'.generation? name).isSome := by
  obtain ⟨k, hk⟩ := h.later name
  rw [hk, Option.isSome_map]
  exact hname

/-- A resolver goes on to itself. -/
theorem Advances.refl (r : Resolver) : r.Advances r where
  ready := rfl
  held := .refl _
  offers _ _ := rfl
  later _ := ⟨0, (Option.map_id' ..).symm⟩
  kept _ _ _ _ _ := rfl

/-- A counter stands still over two stretches just if it stands still over each. -/
theorem Advances.still {r₁ r₂ r₃ : Resolver} (h : r₁.Advances r₂) (h' : r₂.Advances r₃)
    (name : String) :
    r₃.generation? name = r₁.generation? name ↔
      r₂.generation? name = r₁.generation? name ∧ r₃.generation? name = r₂.generation? name := by
  refine ⟨fun hstill => ?_, fun ⟨hfirst, hsecond⟩ => hsecond.trans hfirst⟩
  have hfirst : r₂.generation? name = r₁.generation? name := by
    obtain ⟨k, hk⟩ := h.later name
    obtain ⟨k', hk'⟩ := h'.later name
    cases hn : r₁.generation? name with
    | none =>
      rw [hk, hn]
      rfl
    | some n =>
      rw [hk', hk, hn] at hstill
      have hsum : n + k + k' = n := Option.some.inj hstill
      obtain rfl : k = 0 := by omega
      rw [hk, hn]
      rfl
  exact ⟨hfirst, hstill.trans hfirst.symm⟩

/-- Going on twice is going on. -/
theorem Advances.trans {r₁ r₂ r₃ : Resolver} (h : r₁.Advances r₂) (h' : r₂.Advances r₃) :
    r₁.Advances r₃ where
  ready := h'.ready.trans h.ready
  held := h.held.trans h'.held
  offers side rung := (h'.offers side rung).trans (h.offers side rung)
  later name := by
    obtain ⟨k, hk⟩ := h.later name
    obtain ⟨k', hk'⟩ := h'.later name
    refine ⟨k + k', ?_⟩
    rw [hk', hk, Option.map_map]
    congr 1
    funext n
    exact Nat.add_assoc n k k'
  kept side rung hstill other hother := by
    obtain ⟨hfirst, hsecond⟩ := (h.still h' (rung.key side)).1 hstill
    rw [h'.kept side rung hsecond other hother, h.kept side rung hfirst other hother]

/-- A lookup in flight that is the latest was the latest before, and its counter stood still. -/
theorem Tracked.latest_before {r r' : Resolver} (h : r.Tracked) (ha : r.Advances r') {l : Lookup}
    (hl : l ∈ r.inFlight) (hlatest : r'.Latest l) :
    r.Latest l ∧ r'.generation? l.ticket.trigger = r.generation? l.ticket.trigger := by
  obtain ⟨k, hk⟩ := ha.later l.ticket.trigger
  rw [Latest, hk] at hlatest
  obtain ⟨n, hn, hsum⟩ := Option.map_eq_some_iff.1 hlatest
  have hle := h.dated l hl n hn
  have hk0 : k = 0 := by omega
  subst hk0
  refine ⟨?_, by rw [hk, hn]; rfl⟩
  rw [Latest, hn]
  exact congrArg some hsum

/-- The latest lookup of a rung fetches what the current values ask for. -/
theorem Tracked.fetch_eq {r : Resolver} (h : r.Tracked) {l : Lookup} (hl : l ∈ r.inFlight)
    {side : Side} {rung : Rung} (hrung : l.OfRung side rung) (hlatest : r.Latest l) :
    l.fetch.query? l.snapshot = (rung.trigger side).fetch.query? r.model.snapshot ∧
      ∀ catalog, l.fetch.run l.snapshot catalog =
        (rung.trigger side).fetch.run r.model.snapshot catalog := by
  rw [hrung.fetch]
  refine Rung.fetch_congr rung side fun other hother => ?_
  rw [(h.current l hl side rung hrung hlatest).get hother, Snapshot.get_snapshot]

/-- The latest lookup of a rung was issued for the current value. -/
theorem Tracked.value_eq {r : Resolver} (h : r.Tracked) {l : Lookup} (hl : l ∈ r.inFlight)
    {side : Side} {rung : Rung} (hrung : l.OfRung side rung) (hlatest : r.Latest l) :
    l.ticket.value = r.model.get (rung.key side) :=
  hrung.value.trans ((h.current l hl side rung hrung hlatest).get (Nat.le_refl _))

/-- Lookups in flight with one number are one lookup. -/
theorem Tracked.eq_of_number {r : Resolver} (h : r.Tracked) {l l' : Lookup} (hl : l ∈ r.inFlight)
    (hl' : l' ∈ r.inFlight) (hnumber : l.ticket.number = l'.ticket.number) : l = l' := by
  have hone := List.Pairwise.forall_of_forall_of_flip
    (R := fun l l' : Lookup => l.ticket.number = l'.ticket.number → l = l') (fun _ _ _ => rfl)
    (h.distinct.imp fun hne heq => absurd heq hne)
    (h.distinct.imp fun hne heq => absurd heq.symm hne)
  exact hone hl hl' hnumber

/-- The name of a lookup of the task form has a counter. -/
theorem Tracked.counted_known {r : Resolver} (h : r.Tracked) {l : Lookup} (hl : l.Known) :
    (r.generation? l.ticket.trigger).isSome := by
  rcases hl with ⟨side, rung, hrung⟩ | ⟨side, hloader⟩
  · rw [hrung.trigger]
    exact h.counted side rung
  · rw [hloader.trigger]
    exact h.loaders side

/-- A step that only goes on and adds fresh lookups keeps the lookups in flight accounted for. -/
theorem Tracked.advance {r r' : Resolver} (h : r.Tracked) (ha : r.Advances r')
    (hissued : r.issued ≤ r'.issued) (hin : ∀ l ∈ r'.inFlight, l ∈ r.inFlight ∨ l.Fresh r')
    (hdistinct : r'.inFlight.Pairwise fun l l' => l.ticket.number ≠ l'.ticket.number) :
    r'.Tracked where
  ready := ha.ready.trans h.ready
  held side rung := ha.held _ (h.held side rung)
  offers side rung := (ha.offers side rung).trans (h.offers side rung)
  counted side rung := ha.counted (h.counted side rung)
  loaders side := ha.counted (h.loaders side)
  distinct := hdistinct
  known l hl := (hin l hl).elim (h.known l) (·.known)
  numbered l hl :=
    (hin l hl).elim (fun hold => Nat.lt_of_lt_of_le (h.numbered l hold) hissued) (·.numbered)
  dated l hl n hn := by
    rcases hin l hl with hold | hfresh
    · obtain ⟨k, hk⟩ := ha.later l.ticket.trigger
      obtain ⟨m, hm, hsum⟩ := Option.map_eq_some_iff.1 (hk.symm.trans hn)
      have hle := h.dated l hold m hm
      omega
    · exact Nat.le_of_eq (Option.some.inj (hfresh.latest.symm.trans hn))
  current l hl side rung hrung hlatest := by
    rcases hin l hl with hold | hfresh
    · -- An older lookup that still is the latest saw no change at its rung or above it.
      obtain ⟨hbefore, hstill⟩ := h.latest_before ha hold hlatest
      rw [hrung.trigger] at hstill
      intro other hother
      rw [h.current l hold side rung hrung hbefore other hother]
      exact (ha.kept side rung hstill other hother).symm
    · exact hfresh.faithful side rung hrung

/-- Issuing a lookup of the task form anew gives a fresh one. -/
theorem newLookup_fresh {r : Resolver} {name : String} {fetch : Fetch} {compareKey : Option String}
    (hcounted : (r.generation? name).isSome)
    (hknown : (r.newLookup name fetch compareKey).Known) :
    (r.newLookup name fetch compareKey).Fresh (r.reissue name fetch compareKey).1 where
  known := hknown
  numbered := Nat.lt_succ_self _
  latest := by
    obtain ⟨n, hn⟩ := Option.isSome_iff_exists.1 hcounted
    rw [Latest, generation_newLookup r name fetch compareKey hn]
    refine (generation?_reissue r name fetch compareKey name).trans ?_
    simp [hn]
  faithful side rung _ other _ := Model.valueOf?_snapshot r.model (other.key side)

/-- A lookup issued last is the only one of its number. -/
theorem Tracked.distinct_append {r : Resolver} (h : r.Tracked) {l : Lookup}
    (hl : l.ticket.number = r.issued) :
    (r.inFlight ++ [l]).Pairwise fun l l' => l.ticket.number ≠ l'.ticket.number := by
  refine List.pairwise_append.2 ⟨h.distinct, List.pairwise_singleton .., fun l' hl' new hnew => ?_⟩
  rw [List.mem_singleton.1 hnew, hl]
  exact Nat.ne_of_lt (h.numbered l' hl')

/-- Issuing a lookup goes on and changes no value. -/
theorem advances_reissue (r : Resolver) (name : String) (fetch : Fetch)
    (compareKey : Option String) : r.Advances (r.reissue name fetch compareKey).1 where
  ready := rfl
  held := .refl _
  offers _ _ := rfl
  later other := ⟨_, generation?_reissue r name fetch compareKey other⟩
  kept _ _ _ _ _ := rfl

/-- Issuing a lookup of the task form keeps the lookups in flight accounted for. -/
theorem Tracked.reissue {r : Resolver} (h : r.Tracked) {name : String} {fetch : Fetch}
    {compareKey : Option String} (hcounted : (r.generation? name).isSome)
    (hknown : (r.newLookup name fetch compareKey).Known) :
    (r.reissue name fetch compareKey).1.Tracked := by
  refine h.advance (r.advances_reissue name fetch compareKey) (Nat.le_succ _) (fun l hl => ?_)
    (h.distinct_append rfl)
  rcases List.mem_append.1 hl with hold | hnew
  · exact .inl hold
  · rw [List.mem_singleton.1 hnew]
    exact .inr (newLookup_fresh hcounted hknown)

/-- A resolver goes on to another one by issuing lookups, all of them newer than what it counted. -/
structure Issues (r r' : Resolver) : Prop where
  advances : r.Advances r'
  tracked : r'.Tracked
  newer : ∀ l ∈ r'.inFlight, l ∈ r.inFlight ∨
    ∀ n, r.generation? l.ticket.trigger = some n → n < l.ticket.generation

/-- Issuing one more lookup of the task form issues lookups. -/
theorem Issues.reissue {r s : Resolver} (h : r.Issues s) {name : String} {fetch : Fetch}
    {compareKey : Option String} (hcounted : (s.generation? name).isSome)
    (hknown : (s.newLookup name fetch compareKey).Known) :
    r.Issues (s.reissue name fetch compareKey).1 where
  advances := h.advances.trans (s.advances_reissue name fetch compareKey)
  tracked := h.tracked.reissue hcounted hknown
  newer l hl := by
    rcases List.mem_append.1 hl with hold | hnew
    · exact h.newer l hold
    · rw [List.mem_singleton.1 hnew]
      refine .inr fun n hn => ?_
      obtain ⟨k, hk⟩ := h.advances.later name
      have hn : r.generation? name = some n := hn
      have hcount : s.generation? name = some (n + k) := by
        rw [hk, hn]
        rfl
      refine Nat.lt_of_lt_of_eq ?_ (generation_newLookup s name fetch compareKey hcount).symm
      omega

end Resolver

namespace Template

variable (disabled : List String) {react : Reaction}

/-! ## Changes of the task form -/

/-- A key that triggers nothing is no key of a chain. -/
theorem key_ne_of_trigger? {key : String} (h : (plan disabled react).trigger? key = none)
    (side : Side) (rung : Rung) : key ≠ rung.key side := by
  rintro rfl
  rw [trigger?_key] at h
  cases h

/-- The keys of the chains are spared by a form that keeps to the lists of columns. -/
theorem spares_key (hreact : react.ListsOnly) (side : Side) (rung : Rung) :
    (plan disabled react).react.Spares (rung.key side) :=
  hreact.spares _ fun side' => (rung.unlisted side side').1

/-- Writing a key that triggers nothing leaves the values of the chains. -/
theorem value?_write_key (hreact : react.ListsOnly) (r : Resolver) {key : String} (value : Value)
    (hkey : (plan disabled react).trigger? key = none) (side : Side) (rung : Rung) :
    ((plan disabled react).write r key value).model.value? (rung.key side) =
      r.model.value? (rung.key side) := by
  rw [Plan.value?_write _ (spares_key disabled hreact side rung),
    if_neg (key_ne_of_trigger? disabled hkey side rung)]

variable (r : Resolver) (side : Side) (rung : Rung) (value : Value)

/-- The resolver after an accepted change of a rung. -/
abbrev rerunKey (react : Reaction) : Resolver :=
  ((plan disabled react).rerun r (rung.key side) value (rung.trigger side)).1

/-- A change of a rung shows under its key and resets the rungs below it. -/
theorem value?_rerunKey (hreact : react.ListsOnly) (side' : Side) (other : Rung) :
    (rerunKey disabled r side rung value react).model.value? (other.key side') =
      if Rung.Above side rung side' other then some (.text "")
      else if side = side' ∧ rung = other then some value
      else r.model.value? (other.key side') := by
  rw [Plan.value?_rerun _ (spares_key disabled hreact side' other), cascade_rung,
    Rung.resets_key, usual_key]
  simp only [decide_eq_true_eq, key_inj]

/-- A change of a rung moves on the counters of that rung and of those below it. -/
theorem generation?_rerunKey (side' : Side) (other : Rung) :
    (rerunKey disabled r side rung value react).generation? (other.key side') =
      (r.generation? (other.key side')).map
        (· + if Rung.AtOrAbove side rung side' other then 1 else 0) := by
  have hcount : (if Rung.Above side rung side' other then 1 else 0) +
      (if rung.key side = other.key side' then 1 else 0) =
        if Rung.AtOrAbove side rung side' other then 1 else 0 := by
    cases side <;> cases side' <;> cases rung <;> cases other <;> decide
  rw [Plan.generation?_rerun, cascade_rung, Rung.supersedes_key, hcount]

/-- A change of a rung leaves the counters of the loaders. -/
theorem generation?_rerunKey_loader (side' : Side) :
    (rerunKey disabled r side rung value react).generation? (loaderName side'.typeKey) =
      r.generation? (loaderName side'.typeKey) := by
  rw [Plan.generation?_rerun, cascade_rung, Rung.supersedes_loader,
    if_neg (Rung.loaderName_ne_key side side' rung).symm]
  exact Option.map_id' ..

/-- A change of a rung empties the choices of the rungs below it. -/
theorem choices?_rerunKey (side' : Side) (other : Rung) :
    (rerunKey disabled r side rung value react).choices? (other.key side') =
      (r.choices? (other.key side')).map fun cs =>
        if Rung.Above side rung side' other then [] else cs := by
  rw [Plan.choices?_rerun _ (ruleFree_key disabled react side' other), cascade_rung,
    Rung.empties_key]
  simp only [decide_eq_true_eq]

/-! ## The invariant of a run -/

/-- The lookup that a rung issues. -/
theorem ofRung_newLookup :
    (r.newLookup (rung.key side) (rung.trigger side).fetch
      (some (rung.key side))).OfRung side rung where
  trigger := rfl
  fetch := rfl
  compareKey := rfl
  value := (Snapshot.get_snapshot r.model (rung.key side)).symm

/-- The fields that a loader fills are the types of the two sides. -/
theorem exists_loader {d : Descriptor} {t : Trigger} (hd : d ∈ taskForm disabled)
    (ht : d.loader = some t) :
    ∃ side sourcesOnly, d.key = Side.typeKey side ∧
      t = typeLoader side.typeKey sourcesOnly (disabled.map Text.upper) := by
  have hloaders : (taskForm disabled).filterMap (fun d => d.loader.map fun t => (d.key, t)) =
      [(Keys.sourceType, typeLoader Keys.sourceType true (disabled.map Text.upper)),
        (Keys.targetType, typeLoader Keys.targetType false (disabled.map Text.upper))] := rfl
  have hmem : (d.key, t) ∈
      (taskForm disabled).filterMap (fun d => d.loader.map fun t => (d.key, t)) :=
    List.mem_filterMap.2 ⟨d, hd, by simp [ht]⟩
  rw [hloaders] at hmem
  simp only [List.mem_cons, Prod.mk.injEq, List.not_mem_nil, or_false] at hmem
  rcases hmem with h | h
  · exact ⟨.source, true, h⟩
  · exact ⟨.target, false, h⟩

/-- Writing a key that triggers nothing goes on. -/
theorem advances_write (hreact : react.ListsOnly) {key : String}
    (hkey : (plan disabled react).trigger? key = none) :
    r.Advances ((plan disabled react).write r key value) where
  ready := rfl
  held := (plan disabled react).sub_write hreact.keeps r key value
  offers side rung := by rw [Plan.choices?_write _ (ruleFree_key disabled react side rung)]
  later name := ⟨0, (Option.map_id' ..).symm⟩
  kept side rung _ other _ := value?_write_key disabled hreact r value hkey side other

/-- An accepted change of a rung goes on. -/
theorem advances_rerunKey (hreact : react.ListsOnly) (h : r.Tracked) :
    r.Advances (rerunKey disabled r side rung value react) where
  ready := ((plan disabled react).inFlight_rerun ..).2.2
  held := (plan disabled react).sub_rerun hreact.keeps r (rung.key side) value _
  offers side' other := by rw [choices?_rerunKey, Option.isSome_map]
  later name := ⟨_, Plan.generation?_rerun ..⟩
  kept side' other hstill upper hupper := by
    -- The counter of `other` stands still, so the changed rung is not at or above it.
    have hnot : ¬ Rung.AtOrAbove side rung side' other := by
      intro habove
      obtain ⟨n, hn⟩ := Option.isSome_iff_exists.1 (h.counted side' other)
      rw [generation?_rerunKey, hn, if_pos habove] at hstill
      exact absurd (Option.some.inj hstill) (Nat.succ_ne_self n)
    rw [value?_rerunKey disabled r side rung value hreact, if_neg, if_neg]
    · rintro ⟨rfl, rfl⟩
      exact hnot hupper
    · rintro ⟨rfl, hdepth⟩
      exact hnot ⟨rfl, Nat.le_of_lt (Nat.lt_of_lt_of_le hdepth hupper.2)⟩

/-- The end of a lookup goes on. -/
theorem advances_complete {l : Lookup} {r' : Resolver} (h : Frame r l r') : r.Advances r' where
  ready := h.ready
  held := h.held
  offers := h.offers
  later name := ⟨0, by simp [Resolver.generation?, h.generations]⟩
  kept side _ _ other _ := h.values _ (other.unlisted side)

/-- A form of which all lookups are accounted for offers the fields of its chains. -/
theorem holds_facets (h : r.Tracked) (side : Side) (rung : Rung) :
    Assoc.holds r.facets (rung.key side) = true := by
  have hoffers := h.offers side rung
  rwa [Resolver.choices?, Option.isSome_map] at hoffers

/-- The rungs of a form of which all lookups are accounted for are held. -/
theorem holds_model (h : r.Tracked) (side : Side) (rung : Rung) :
    r.model.holds (rung.key side) = true := by
  have hheld := h.held side rung
  rwa [Model.isSome_value?] at hheld

/-- A change of a rung is accepted while a loop runs. -/
theorem take_rung (h : r.Tracked) (side : Side) (rung : Rung) (value : Value) :
    (plan disabled react).take r (.change (rung.key side) value true) =
      rerunKey disabled r side rung value react :=
  congrArg Prod.fst ((plan disabled react).change_of_trigger value
    (trigger?_key disabled react side rung) h.ready (holds_model r h side rung))

/-- Completing a lookup in flight keeps what its frame names. -/
theorem frame_complete (hreact : react.ListsOnly) (h : r.Tracked) {l : Lookup}
    (hl : l ∈ r.inFlight) (ending : Ending) :
    Frame r l ((plan disabled react).complete r l (ending.answer l)).1 :=
  complete_frame disabled react hreact (h.known l hl) (holds_facets r h) ending

/-- An accepted change of a rung keeps the lookups in flight accounted for. -/
theorem tracked_rerunKey (hreact : react.ListsOnly) (h : r.Tracked) :
    (rerunKey disabled r side rung value react).Tracked ∧
      ((plan disabled react).rerunLookup r (rung.key side) value (rung.trigger side)).Fresh
        (rerunKey disabled r side rung value react) := by
  have hadvances := advances_rerunKey disabled r side rung value hreact h
  obtain ⟨hin, hissued, -⟩ :=
    (plan disabled react).inFlight_rerun r (rung.key side) value (rung.trigger side)
  have hbase : ((((plan disabled react).cascade (rung.key side) (rung.trigger side)).foldl
      (plan disabled react).runStep
        ((plan disabled react).write r (rung.key side) value)).generation?
          (rung.key side)).isSome := by
    rw [Plan.generation?_runSteps, Option.isSome_map]
    exact h.counted side rung
  have hfresh := Resolver.newLookup_fresh hbase (.inl ⟨side, rung, ofRung_newLookup _ side rung⟩)
  have hnumber : ((plan disabled react).rerunLookup r (rung.key side) value
      (rung.trigger side)).ticket.number = r.issued :=
    ((plan disabled react).inFlight_runSteps _ _).2.1
  refine ⟨h.advance hadvances (hissued ▸ Nat.le_succ _) (fun l hl => ?_) ?_, hfresh⟩
  · rw [hin] at hl
    rcases List.mem_append.1 hl with hold | hnew
    · exact .inl hold
    · rw [List.mem_singleton.1 hnew]
      exact .inr hfresh
  · rw [hin]
    exact h.distinct_append hnumber

variable (react) in
/-- A first load issues lookups. -/
theorem issues_prime {r : Resolver} (h : r.Tracked) (running : Bool) :
    r.Issues ((plan disabled react).prime r running).1 := by
  refine (plan disabled react).prime_induct (P := r.Issues) ?_ ?_
    ⟨.refl r, h, fun l hl => .inl hl⟩ running
  · intro s d loader hd hloader h
    obtain ⟨side, sourcesOnly, hkey, rfl⟩ := exists_loader disabled hd hloader
    rw [hkey]
    exact h.reissue (h.tracked.loaders side) (.inr ⟨side, rfl, ⟨sourcesOnly, _, rfl⟩, rfl⟩)
  · intro s d trigger v hd htrigger _ _ _ h
    obtain ⟨side, rung, hkey, rfl⟩ := exists_rung disabled hd htrigger
    rw [hkey]
    exact h.reissue (h.tracked.counted side rung)
      (.inl ⟨side, rung, ofRung_newLookup s side rung⟩)

/-- A step goes on and keeps the lookups in flight accounted for. -/
theorem advances_take (hreact : react.ListsOnly) {r : Resolver} (h : r.Tracked) (step : Step) :
    r.Advances ((plan disabled react).take r step) ∧
      ((plan disabled react).take r step).Tracked := by
  have htaken := (plan disabled react).take_cases r step
  generalize (plan disabled react).take r step = r' at htaken ⊢
  cases htaken with
  | refused | absent => exact ⟨.refl r, h⟩
  | written key value _ hplain _ =>
    have hadvances := advances_write disabled r value hreact hplain
    exact ⟨hadvances, h.advance hadvances (Nat.le_refl _) (fun l hl => .inl hl) h.distinct⟩
  | rerun key value trigger htrigger _ =>
    obtain ⟨side, rung, rfl, rfl⟩ := trigger?_eq_some disabled react htrigger
    exact ⟨advances_rerunKey disabled r side rung value hreact h,
      (tracked_rerunKey disabled r side rung value hreact h).1⟩
  | primed running =>
    have hissues := issues_prime disabled react h running
    exact ⟨hissues.advances, hissues.tracked⟩
  | ended number ending l hl =>
    have hframe := frame_complete disabled r hreact h (Resolver.lookup?_eq_some hl).1 ending
    have hadvances := advances_complete r hframe
    refine ⟨hadvances, h.advance hadvances (Nat.le_of_eq hframe.issued.symm)
      (fun l' hl' => ?_) ?_⟩
    · rw [hframe.inFlight] at hl'
      exact .inl (Resolver.mem_without.1 hl').1
    · rw [hframe.inFlight]
      exact h.distinct.sublist List.filter_sublist

/-- A step keeps the lookups in flight accounted for. -/
theorem tracked_take (hreact : react.ListsOnly) {r : Resolver} (h : r.Tracked) (step : Step) :
    ((plan disabled react).take r step).Tracked :=
  (advances_take disabled hreact h step).2

/-- A run goes on and keeps the lookups in flight accounted for. -/
theorem advances_run (hreact : react.ListsOnly) {r : Resolver} (h : r.Tracked)
    (steps : List Step) :
    r.Advances ((plan disabled react).run r steps) ∧
      ((plan disabled react).run r steps).Tracked := by
  induction steps generalizing r with
  | nil => exact ⟨.refl r, h⟩
  | cons step rest ih =>
    obtain ⟨hstep, htracked⟩ := advances_take disabled hreact h step
    obtain ⟨hrest, hend⟩ := ih htracked
    exact ⟨hstep.trans hrest, hend⟩

/-- A run keeps the lookups in flight accounted for. -/
theorem tracked_run (hreact : react.ListsOnly) {r : Resolver} (h : r.Tracked) (steps : List Step) :
    ((plan disabled react).run r steps).Tracked :=
  (advances_run disabled hreact h steps).2

end Template

end SyncForm
