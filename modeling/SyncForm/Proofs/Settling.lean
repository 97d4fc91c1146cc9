import SyncForm.Proofs.Reconciling

/-!
# What a rung settles at

A rung shows the result of its lookup: the choices of the field below it, or the columns and
partitions at the end of the chain. What the latest lookup of a rung brings is fixed by the current
values (`outcome`), whenever it is completed. `Resolver.Settles` says that a rung shows a given
result or will show it once its lookups are completed; a completion leaves that result
(`Template.settles_complete`), and a change replaces it at the changed rung and below
(`Template.settles_rerunKey`).
-/

namespace SyncForm

namespace LookupResult

/-- The choices that a result has for a field; none where it does not name the field. -/
def offered (result : LookupResult) (field : String) : List Choice :=
  (Assoc.valueOf? result.choices field).getD []

/-- The value that a result has for a list; the empty list where it does not name it. -/
def listed (result : LookupResult) (key : String) : Value :=
  (Assoc.valueOf? result.values key).getD (.list [])

/-- What an answer brings; nothing where there is no result. -/
def ofAnswer : Except Fault (Option LookupResult) → LookupResult
  | .ok (some result) => result
  | _ => {}

end LookupResult

/-- A rung shows a result; the columns may be padded. -/
def Shows (r : Resolver) (side : Side) (rung : Rung) (result : LookupResult) : Prop :=
  match rung with
  | .type => r.choices? side.instanceKey = some (result.offered side.instanceKey)
  | .place => r.choices? side.tableKey = some (result.offered side.tableKey)
  | .table => (∃ items, result.listed side.key = .list items ∧ Padded r.model side items) ∧
      r.model.value? side.partitionsKey = some (result.listed side.partitionsKey)

/-- What the lookup of a rung comes to for the values of a model: nothing where it is skipped, fails
or is issued for a value that does not equal itself. -/
def outcome (catalog : Catalog) (m : Model) (side : Side) (rung : Rung) : LookupResult :=
  if (m.get (rung.key side)).equals (m.get (rung.key side)) then
    .ofAnswer ((rung.trigger side).fetch.run m.snapshot catalog)
  else {}

/-- Models that agree down to a rung have the same outcome there. -/
theorem SameDownTo.outcome_eq {side : Side} {rung : Rung} {m m' : Model}
    (h : SameDownTo side rung m m') (catalog : Catalog) :
    outcome catalog m' side rung = outcome catalog m side rung := by
  rw [outcome, outcome, Model.get_congr (h rung (Nat.le_refl _)), h.fetch_eq.2]

namespace Shows

variable {r r' : Resolver} {side : Side} {rung : Rung} {result : LookupResult}

/-- A rung goes on to show a result while the choices of the rung below it, or the lists, stay. -/
theorem mono (h : Shows r side rung result)
    (hchoices : ∀ lower : Rung, lower.depth = rung.depth + 1 →
      r'.choices? (lower.key side) = r.choices? (lower.key side))
    (hlists : rung = .table → (∀ items, Padded r.model side items → Padded r'.model side items) ∧
      r'.model.value? side.partitionsKey = r.model.value? side.partitionsKey) :
    Shows r' side rung result := by
  cases rung with
  | type => exact (hchoices .place rfl).trans h
  | place => exact (hchoices .table rfl).trans h
  | table =>
    obtain ⟨⟨items, hitems, hpadded⟩, hpartitions⟩ := h
    obtain ⟨hcolumns, hsame⟩ := hlists rfl
    exact ⟨⟨items, hitems, hcolumns items hpadded⟩, hsame.trans hpartitions⟩

/-- A rung shows the choices of a result that names the field below it. -/
theorem of_choices {lower : Rung} (hlower : lower.depth = rung.depth + 1) {choices : List Choice}
    (h : r.choices? (lower.key side) = some choices) :
    Shows r side rung { choices := [(lower.key side, choices)] } := by
  cases rung <;> cases lower <;> first | exact absurd hlower (by decide) | skip
  all_goals
    refine h.trans (congrArg some ?_)
    simp [LookupResult.offered, Assoc.valueOf?, Rung.key]

/-- The end of a chain shows the lists of a table. -/
theorem of_lists {t : TableColumns} (hcolumns : Padded r.model side t.records)
    (hpartitions : r.model.value? side.partitionsKey = some (.list (t.placeholders.map .text))) :
    Shows r side .table (tableResult side t) := by
  have hne := (side.partitionsKey_ne_key side).symm
  refine ⟨⟨t.records, ?_, hcolumns⟩, hpartitions.trans (congrArg some ?_)⟩
  · simp [LookupResult.listed, tableResult, Assoc.valueOf?]
  · simp [LookupResult.listed, tableResult, Assoc.valueOf?, hne]

end Shows

/-- A rung shows a result or will show it: its latest lookups bring nothing else, and it is shown
already unless nothing is shown yet and such a lookup is in flight. -/
structure Resolver.Settles (r : Resolver) (catalog : Catalog) (side : Side) (rung : Rung)
    (result : LookupResult) : Prop where
  due : ∀ l ∈ r.inFlight, l.OfRung side rung → r.Latest l →
    result = outcome catalog r.model side rung
  shown : Shows r side rung result ∨
    Shows r side rung {} ∧ ∃ l ∈ r.inFlight, l.OfRung side rung ∧ r.Latest l

namespace Resolver.Settles

variable {r r' : Resolver} {catalog : Catalog} {side : Side} {rung : Rung} {result : LookupResult}

/-- A rung shows something before it settles. -/
theorem exists_shows (h : r.Settles catalog side rung result) : ∃ now, Shows r side rung now :=
  h.shown.elim (fun hshown => ⟨_, hshown⟩) fun hpending => ⟨_, hpending.1⟩

/-- A rung settles at the same result while the values down to it, what it shows and its latest
lookups stay. -/
theorem mono (h : r.Settles catalog side rung result)
    (hvalues : SameDownTo side rung r.model r'.model)
    (hshows : ∀ result, Shows r side rung result → Shows r' side rung result)
    (hlatest : ∀ l, l.OfRung side rung →
      (l ∈ r'.inFlight ∧ r'.Latest l ↔ l ∈ r.inFlight ∧ r.Latest l)) :
    r'.Settles catalog side rung result where
  due l hl hrung hl' := by
    obtain ⟨hold, hbefore⟩ := (hlatest l hrung).1 ⟨hl, hl'⟩
    rw [hvalues.outcome_eq]
    exact h.due l hold hrung hbefore
  shown := by
    rcases h.shown with hshown | ⟨hempty, l, hl, hrung, hl'⟩
    · exact .inl (hshows _ hshown)
    · obtain ⟨hin, hafter⟩ := (hlatest l hrung).2 ⟨hl, hl'⟩
      exact .inr ⟨hshows _ hempty, l, hin, hrung, hafter⟩

/-- Where no lookup is in flight a rung shows what it settles at. -/
theorem shows_of_idle (h : r.Settles catalog side rung result) (hidle : r.inFlight = []) :
    Shows r side rung result := by
  rcases h.shown with hshown | ⟨-, l, hl, -⟩
  · exact hshown
  · rw [hidle] at hl
    exact absurd hl List.not_mem_nil

end Resolver.Settles

namespace Template

variable (disabled : List String) {r : Resolver} {catalog : Catalog} {side : Side} {rung : Rung}
  {result : LookupResult}

/-! ## Changes -/

/-- Writing a key that triggers nothing and holds no list leaves what a rung settles at. -/
theorem settles_write (h : r.Settles catalog side rung result) {key : String} (value : Value)
    (hplain : (plan disabled Form.follow).trigger? key = none) (hkey : Unlisted key) :
    ((plan disabled Form.follow).write r key value).Settles catalog side rung result := by
  refine h.mono
    (fun other _ => value?_write_key disabled Form.follow_listsOnly r value hplain side other)
    (fun result hshows => hshows.mono (fun lower _ => ?_) fun _ => ⟨fun items hpadded => ?_, ?_⟩)
    fun _ _ => Iff.rfl
  · exact Plan.choices?_write _ (ruleFree_key disabled Form.follow side lower) r key value
  · exact padded_write disabled r hpadded value (hkey side).1 fun _ =>
      key_ne_of_trigger? disabled hplain .target .type
  · rw [Plan.value?_write _ (spares_partitions disabled side), if_neg (hkey side).2]

/-- A change of a rung leaves what the rungs settle at that are not below it. -/
theorem settles_rerunKey_of_not (h : r.Settles catalog side rung result) (side₀ : Side)
    (rung₀ : Rung) (value : Value) (hnot : ¬ Rung.AtOrAbove side₀ rung₀ side rung) :
    (rerunKey disabled r side₀ rung₀ value Form.follow).Settles catalog side rung result := by
  have hnone : ∀ other : Rung, other.depth ≤ rung.depth →
      ¬ Rung.AtOrAbove side₀ rung₀ side other := fun other hother habove =>
    hnot ⟨habove.1, Nat.le_trans habove.2 hother⟩
  have hside : rung = .table → side₀ ≠ side := by
    rintro rfl rfl
    exact hnot ⟨rfl, by cases rung₀ <;> decide⟩
  refine h.mono (fun other hother => ?_)
    (fun result hshows => hshows.mono (fun lower hlower => ?_)
      fun htable => ⟨fun items hpadded => ?_, ?_⟩) fun l hrung => ?_
  · rw [value?_rerunKey disabled r side₀ rung₀ value Form.follow_listsOnly, if_neg, if_neg]
    · rintro ⟨rfl, rfl⟩
      exact hnone rung₀ hother ⟨rfl, Nat.le_refl _⟩
    · exact fun habove => hnone other hother ⟨habove.1, Nat.le_of_lt habove.2⟩
  · have hbelow : ¬ Rung.Above side₀ rung₀ side lower := by
      rintro ⟨hsame, hdepth⟩
      exact hnot ⟨hsame, by omega⟩
    simp only [choices?_rerunKey, if_neg hbelow]
    exact Option.map_id' ..
  · have hkept := padded_rerunKey disabled r hpadded side₀ rung₀ value
    rwa [if_neg (hside htable)] at hkept
  · rw [partitions_rerunKey, if_neg (hside htable)]
  · have hin := ((plan disabled Form.follow).inFlight_rerun r (rung₀.key side₀) value
      (rung₀.trigger side₀)).1
    have hcounter : (rerunKey disabled r side₀ rung₀ value Form.follow).generation?
        l.ticket.trigger = r.generation? l.ticket.trigger := by
      rw [hrung.trigger, generation?_rerunKey, if_neg hnot]
      exact Option.map_id' ..
    rw [Resolver.Latest, Resolver.Latest, hcounter, hin]
    refine and_congr_left fun _ => ⟨fun hl => ?_, List.mem_append_left _⟩
    refine (List.mem_append.1 hl).resolve_right fun hnew => hnot ?_
    -- The lookup that the change issues is one of its own rung.
    rw [List.mem_singleton.1 hnew] at hrung
    obtain ⟨rfl, rfl⟩ := key_inj.1 hrung.trigger
    exact ⟨rfl, Nat.le_refl _⟩

/-- A change of a rung empties what the rungs show at and below it. -/
theorem shows_rerunKey (ht : r.Tracked) (h : r.Settles catalog side rung result) {rung₀ : Rung}
    (value : Value) (hdepth : rung₀.depth ≤ rung.depth) :
    Shows (rerunKey disabled r side rung₀ value Form.follow) side rung {} := by
  have hempty : ∀ lower : Rung, lower.depth = rung.depth + 1 →
      (rerunKey disabled r side rung₀ value Form.follow).choices? (lower.key side) = some [] := by
    intro lower hlower
    obtain ⟨choices, hchoices⟩ := Option.isSome_iff_exists.1 (ht.offers side lower)
    have habove : Rung.Above side rung₀ side lower := ⟨rfl, by omega⟩
    rw [choices?_rerunKey, hchoices, Option.map_some, if_pos habove]
  cases rung with
  | type => exact hempty .place rfl
  | place => exact hempty .table rfl
  | table =>
    obtain ⟨now, ⟨items, -, hpadded⟩, -⟩ := h.exists_shows
    refine ⟨⟨[], rfl, ?_⟩, ?_⟩
    · have hreset := padded_rerunKey disabled r hpadded side rung₀ value
      rwa [if_pos rfl] at hreset
    · rw [partitions_rerunKey, if_pos rfl]
      rfl

/-- A changed rung settles at its outcome for the values after the change, and the rungs below it
at nothing. -/
theorem settles_rerunKey (ht : r.Tracked) (h : r.Settles catalog side rung result) (rung₀ : Rung)
    (value : Value) (hdepth : rung₀.depth ≤ rung.depth) :
    (rerunKey disabled r side rung₀ value Form.follow).Settles catalog side rung
      (if rung₀ = rung then
        outcome catalog (rerunKey disabled r side rung₀ value Form.follow).model side rung
      else {}) := by
  have hshows := shows_rerunKey disabled ht h value hdepth
  have hin := ((plan disabled Form.follow).inFlight_rerun r (rung₀.key side) value
    (rung₀.trigger side)).1
  have hfresh := (tracked_rerunKey disabled r side rung₀ value Form.follow_listsOnly ht).2
  by_cases hsame : rung₀ = rung
  · subst hsame
    rw [if_pos rfl]
    refine ⟨fun _ _ _ _ => rfl, .inr ⟨hshows, _, ?_, ofRung_newLookup _ side rung₀, hfresh.latest⟩⟩
    rw [hin]
    exact List.mem_append_right _ List.mem_cons_self
  · rw [if_neg hsame]
    refine ⟨fun l hl hrung hlatest => ?_, .inl hshows⟩
    rw [hin] at hl
    rcases List.mem_append.1 hl with hold | hnew
    · -- The counter of the rung has moved on since the lookup was issued.
      have hstill := (ht.latest_before
        (advances_rerunKey disabled r side rung₀ value Form.follow_listsOnly ht) hold hlatest).2
      obtain ⟨n, hn⟩ := Option.isSome_iff_exists.1 (ht.counted side rung)
      have hbelow : Rung.AtOrAbove side rung₀ side rung := ⟨rfl, hdepth⟩
      rw [hrung.trigger, generation?_rerunKey, hn, if_pos hbelow] at hstill
      exact absurd (Option.some.inj hstill) (Nat.succ_ne_self n)
    · rw [List.mem_singleton.1 hnew] at hrung
      exact absurd (key_inj.1 hrung.trigger).2 hsame

/-! ## Completions -/

variable (catalog) in
/-- The outcome of a rung is what its latest lookup comes to, if that counts. -/
theorem outcome_eq (ht : r.Tracked) {l : Lookup} (hl : l ∈ r.inFlight) (hrung : l.OfRung side rung)
    (hlatest : r.Latest l) :
    outcome catalog r.model side rung =
      if r.isStale l then {} else .ofAnswer ((Ending.answered catalog).answer l) := by
  have hstale := Resolver.isStale_eq_false (r := r) hrung.compareKey
  rw [ht.value_eq hl hrung hlatest, and_iff_right hlatest] at hstale
  rw [outcome, Ending.answer, (ht.fetch_eq hl hrung hlatest).2]
  cases hequals : (r.model.get (rung.key side)).equals (r.model.get (rung.key side)) with
  | true => rw [if_pos rfl, if_neg (Bool.eq_false_iff.1 (hstale.2 hequals))]
  | false =>
    have hdiscards : r.isStale l = true := by
      rw [← Bool.not_eq_false, hstale, hequals]
      exact Bool.false_ne_true
    rw [if_neg Bool.false_ne_true, if_pos hdiscards]

variable (side rung) in
/-- Offering the choices that a lookup brings changes what a rung shows only if the lookup is one of
that rung, and then shows them. -/
theorem shows_offer (ht : r.Tracked) {l : Lookup} {side' : Side} {lower : Rung}
    (hfills : l.Fills side' lower) (choices : List Choice) :
    (¬ l.OfRung side rung ∧ ∀ result, Shows r side rung result →
      Shows (r.offer (lower.key side') choices) side rung result) ∨
    (l.OfRung side rung ∧ Shows (r.offer (lower.key side') choices) side rung
      { choices := [(lower.key side', choices)] }) := by
  by_cases hbelow : side' = side ∧ lower.depth = rung.depth + 1
  · obtain ⟨rfl, hdepth⟩ := hbelow
    refine .inr ⟨?_, Shows.of_choices hdepth ?_⟩
    · rcases hfills with ⟨-, rfl⟩ | ⟨upper, hupper, hlower⟩
      · cases hdepth
      · obtain rfl : upper = rung := Rung.depth_inj (by omega)
        exact hupper
    · obtain ⟨old, hold⟩ := Option.isSome_iff_exists.1 (ht.offers side' lower)
      rw [Resolver.choices?_offer, if_pos rfl, hold]
      rfl
  · refine .inl ⟨fun hrung => ?_, fun result hshows => hshows.mono (fun other hother => ?_)
      fun _ => ⟨fun _ => id, rfl⟩⟩
    · rcases hfills with ⟨hloader, -⟩ | ⟨upper, hupper, hlower⟩
      · exact absurd (hloader.trigger.symm.trans hrung.trigger)
          (Rung.loaderName_ne_key side side' rung)
      · obtain ⟨rfl, rfl⟩ := hupper.inj hrung
        exact hbelow ⟨rfl, hlower⟩
    · rw [Resolver.choices?_offer, if_neg]
      intro hkey
      obtain ⟨rfl, rfl⟩ := key_inj.1 hkey
      exact hbelow ⟨rfl, hother⟩

/-- Bringing the lists of a table changes what a rung shows only if the table is that rung, and then
shows them. -/
theorem shows_bring (hnow : ∃ now, Shows r side rung now) (side' : Side) (t : TableColumns) :
    (¬ (side' = side ∧ rung = .table) ∧ ∀ result, Shows r side rung result →
      Shows ((plan disabled Form.follow).bring r side' t) side rung result) ∨
    ((side' = side ∧ rung = .table) ∧ Shows ((plan disabled Form.follow).bring r side' t) side rung
      (tableResult side' t)) := by
  by_cases hsame : side' = side ∧ rung = .table
  · obtain ⟨rfl, rfl⟩ := hsame
    obtain ⟨now, ⟨items, -, hpadded⟩, -⟩ := hnow
    have hbrought := padded_bring disabled r hpadded side' t
    rw [if_pos rfl] at hbrought
    refine .inr ⟨⟨rfl, rfl⟩, Shows.of_lists hbrought ?_⟩
    rw [partitions_bring, if_pos rfl]
  · refine .inl ⟨hsame, fun result hshows => hshows.mono (fun other _ => ?_)
      fun htable => ⟨fun items hpadded => ?_, ?_⟩⟩
    · exact (plan disabled Form.follow).choices?_bring
        (ruleFree_key disabled Form.follow side other) r side' t
    · have hkept := padded_bring disabled r hpadded side' t
      rwa [if_neg fun hside => hsame ⟨hside, htable⟩] at hkept
    · rw [partitions_bring, if_neg fun hside => hsame ⟨hside, htable⟩]

variable (catalog) in
/-- The end of a lookup leaves what a rung shows, where the lookup is not the latest of the rung or
comes to nothing; otherwise the rung shows its outcome afterwards. -/
theorem shows_complete (ht : r.Tracked) {l : Lookup} (hl : l ∈ r.inFlight)
    (hnow : ∃ now, Shows r side rung now) :
    let ending := Ending.answered catalog
    let r' := ((plan disabled Form.follow).complete r l (ending.answer l)).1
    (∀ result, Shows r side rung result → Shows r' side rung result) ∧
        (l.OfRung side rung → r.Latest l → outcome catalog r.model side rung = {}) ∨
      l.OfRung side rung ∧ r.Latest l ∧ Shows r' side rung (outcome catalog r.model side rung) := by
  intro ending r'
  have houtcome := fun hrung : l.OfRung side rung =>
    outcome_eq catalog ht hl hrung
  have hends := complete_cases disabled Form.follow (ht.known l hl) (holds_facets r ht) ending
  dsimp only [r']
  generalize (plan disabled Form.follow).complete r l (ending.answer l) = done at hends ⊢
  cases hends with
  | stale hstale =>
    refine .inl ⟨fun _ => id, fun hrung hlatest => ?_⟩
    rw [houtcome hrung hlatest, if_pos hstale]
  | failed hfresh cause hanswer =>
    refine .inl ⟨fun result hshows => hshows.mono (fun _ _ => rfl)
      fun _ => ⟨fun items hpadded => ?_, Plan.value?_fail ..⟩, fun hrung hlatest => ?_⟩
    · exact hpadded.congr (Plan.value?_fail ..) fun _ => Plan.value?_fail ..
    · rw [houtcome hrung hlatest, if_neg (Bool.eq_false_iff.1 hfresh), hanswer]
      rfl
  | skipped hfresh hanswer =>
    refine .inl ⟨fun _ => id, fun hrung hlatest => ?_⟩
    rw [houtcome hrung hlatest, if_neg (Bool.eq_false_iff.1 hfresh), hanswer]
    rfl
  | offered hfresh side' lower choices hfills hanswer =>
    have hlatest := Resolver.latest_of_isStale hfresh
    rcases shows_offer (r := r) side rung ht hfills choices with
      ⟨hother, hkeeps⟩ | ⟨hrung, hshows⟩
    · exact .inl ⟨hkeeps, fun hrung _ => absurd hrung hother⟩
    · rw [houtcome hrung hlatest, if_neg (Bool.eq_false_iff.1 hfresh), hanswer]
      exact .inr ⟨hrung, hlatest, hshows⟩
  | brought hfresh side' t htable hanswer =>
    have hlatest := Resolver.latest_of_isStale hfresh
    rcases shows_bring disabled (r := r.without l) hnow side' t with
      ⟨hother, hkeeps⟩ | ⟨⟨rfl, rfl⟩, hshows⟩
    · refine .inl ⟨hkeeps, fun hrung _ => absurd ?_ hother⟩
      obtain ⟨rfl, rfl⟩ := htable.inj hrung
      exact ⟨rfl, rfl⟩
    · rw [houtcome htable hlatest, if_neg (Bool.eq_false_iff.1 hfresh), hanswer]
      exact .inr ⟨htable, hlatest, hshows⟩

/-- The end of a lookup that a catalog answers leaves what a rung settles at. -/
theorem settles_complete (ht : r.Tracked) {l : Lookup} (hl : l ∈ r.inFlight)
    (h : r.Settles catalog side rung result) :
    ((plan disabled Form.follow).complete r l
      ((Ending.answered catalog).answer l)).1.Settles catalog side rung result := by
  have hframe := frame_complete disabled r Form.follow_listsOnly ht hl (.answered catalog)
  have hsame : SameDownTo side rung r.model ((plan disabled Form.follow).complete r l
      ((Ending.answered catalog).answer l)).1.model :=
    fun other _ => hframe.values _ (other.unlisted side)
  have hlatest : ∀ other, ((plan disabled Form.follow).complete r l
      ((Ending.answered catalog).answer l)).1.Latest other ↔ r.Latest other := fun other => by
    rw [Resolver.Latest, Resolver.Latest, Resolver.generation?, Resolver.generation?,
      hframe.generations]
  refine ⟨fun other hother hrung hnow => ?_, ?_⟩
  · rw [hframe.inFlight] at hother
    rw [hsame.outcome_eq]
    exact h.due other (Resolver.mem_without.1 hother).1 hrung ((hlatest other).1 hnow)
  · rcases shows_complete disabled catalog ht hl h.exists_shows with
      ⟨hkeeps, hnothing⟩ | ⟨hrung, hnow, hshows⟩
    · rcases h.shown with hshown | ⟨hempty, other, hother, hrung, hnow⟩
      · exact .inl (hkeeps _ hshown)
      · by_cases hnumber : other.ticket.number = l.ticket.number
        · -- The lookup awaited was this one, and it came to nothing.
          obtain rfl := ht.eq_of_number hother hl hnumber
          rw [h.due other hother hrung hnow, hnothing hrung hnow]
          exact .inl (hkeeps _ hempty)
        · refine .inr ⟨hkeeps _ hempty, other, ?_, hrung, (hlatest other).2 hnow⟩
          rw [hframe.inFlight]
          exact Resolver.mem_without.2 ⟨hother, hnumber⟩
    · rw [h.due l hl hrung hnow]
      exact .inl hshows

end Template

end SyncForm
