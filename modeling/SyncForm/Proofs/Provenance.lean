import SyncForm.Proofs.Contents

/-!
# The sources of the column lists

An operation of the user edits one list at most (`EditorCall.edited?`); besides it sets flags, also
in the other list (`EditorCall.Reflags`). What it does before it marks a list as the user's leaves
the sources of both (`Mapping.Rewritten`), and it marks the list that it edits alone. A flag that is
set in another list leaves the source of that list (`EditorCall.connect_unmarked`).
`EditorCall.edited_marked` sums up.
-/

namespace SyncForm

/-! ## Sources -/

namespace Model

/-- The source of a key, if it is held. -/
def source? (m : Model) (key : String) : Option Source :=
  (m.find? key).map (·.source)

/-- Replacing a value leaves all sources. -/
theorem source?_replace (m : Model) (key : String) (value : Value) (other : String) :
    (m.replace key value).source? other = m.source? other := by
  rw [source?, source?, replace, find?_adjust]
  split
  · rw [Option.map_map]
    rfl
  · rfl

/-- Marking a key as the user's changes its source alone. -/
theorem source?_touch (m : Model) (key other : String) :
    (m.touch key).source? other =
      if key = other then (m.source? other).map fun _ => .user else m.source? other := by
  rw [source?, source?, touch, find?_adjust]
  split
  · rw [Option.map_map, Option.map_map]
    rfl
  · rfl

end Model

/-! ## What an operation may change -/

/-- An entry of a list without its flag. -/
def Value.unflagged : Value → Value
  | .column c => .column (Column.contents c)
  | v => v

namespace EditorCall

/-- The operations of the user: they edit a list or set flags. -/
def OfUser : EditorCall → Prop
  | reconcile _ => False
  | summary => False
  | validate _ => False
  | _ => True

/-- The list that an operation of the user edits, flags apart. -/
def edited? : EditorCall → Option Side
  | add side => some side
  | remove side _ => some side
  | move side _ _ => some side
  | update side _ _ _ => some side
  | _ => none

/-- An operation of the user may set flags in a list. -/
def Reflags : EditorCall → Side → Prop
  | remove _ _, _ => True
  | move side _ _, s => s = side
  | connect _ _, _ => True
  | connectAll _, _ => True
  | _, _ => False

/-- The arguments of an operation are of their kinds: a direction is one of the two words, and a
payload is a text. -/
def WellFormed : EditorCall → Prop
  | move _ _ direction => ∃ word, Direction.ofValue direction = .ok word
  | update _ _ _ payload => ∀ v ∈ payload, ∃ s, v = .text s
  | _ => True

end EditorCall

namespace Mapping

variable {edited flagged : Side → Prop} {m m' : Model}

/-- A model holds two lists as another one does, from the same sources. Only an edited list holds
other contents, and one that is neither edited nor flagged is the same in all. -/
structure Rewritten (edited flagged : Side → Prop) (m m' : Model) : Prop where
  lists : HoldsLists m'
  source : ∀ side : Side, m'.source? side.key = m.source? side.key
  contents : ∀ side, ¬ edited side →
    (Mapping.items m' side).map Value.unflagged = (Mapping.items m side).map Value.unflagged
  same : ∀ side, ¬ edited side → ¬ flagged side → m'.find? side.key = m.find? side.key

/-- A stored list is what its side holds then. -/
theorem HoldsLists.items_store (h : HoldsLists m) (side : Side) (entries : List Value) :
    Mapping.items (store m side entries) side = entries := by
  obtain ⟨before, hbefore⟩ := h side
  refine items_eq ?_
  rw [value?_store, if_pos rfl, hbefore]
  rfl

namespace Rewritten

/-- Nothing is rewritten at first. -/
theorem refl (h : HoldsLists m) : Rewritten edited flagged m m :=
  ⟨h, fun _ => rfl, fun _ _ => rfl, fun _ _ _ => rfl⟩

/-- A list is stored that is edited, or of which only flags are set. -/
theorem store (h : Rewritten edited flagged m m') {side : Side} (entries : List Value)
    (hside : edited side ∨ flagged side ∧
      entries.map Value.unflagged = (Mapping.items m' side).map Value.unflagged) :
    Rewritten edited flagged m (Mapping.store m' side entries) where
  lists s := by
    obtain ⟨before, hbefore⟩ := h.lists s
    rw [value?_store, hbefore]
    split
    · exact ⟨_, rfl⟩
    · exact ⟨_, rfl⟩
  source s := (m'.source?_replace ..).trans (h.source s)
  contents s hs := by
    rw [← h.contents s hs]
    by_cases hsame : s = side
    · subst hsame
      rw [h.lists.items_store]
      exact (hside.resolve_left hs).2
    · rw [items_congr ((value?_store m' side entries s).trans (if_neg hsame))]
  same s hs hflagged := by
    rw [← h.same s hs hflagged, Mapping.store, Model.find?_replace, if_neg]
    intro hkey
    cases Side.key_inj.1 hkey
    exact hside.elim hs fun hother => hflagged hother.1

/-- Flags are set in lists that may be flagged. -/
theorem setFlags (h : Rewritten edited flagged m m') (on : Bool) (flags : List (Side × Nat))
    (hflags : ∀ flag ∈ flags, flagged flag.1) :
    Rewritten edited flagged m (Mapping.setFlags m' on flags).1 := by
  induction flags generalizing m' with
  | nil => exact h
  | cons flag rest ih =>
    unfold Mapping.setFlags
    have hrest := fun other hother => hflags other (.tail _ hother)
    cases hflag : Mapping.setFlag m' flag.1 flag.2 on with
    | error fault => exact h
    | ok set =>
      rcases setFlag_cases hflag with rfl | ⟨c, hc, rfl⟩
      · exact ih h hrest
      · refine ih (h.store _ (.inr ⟨hflags flag (.head _), ?_⟩)) hrest
        -- The entry that is put back differs from the one there in its flag.
        obtain ⟨hlt, hentry⟩ := List.getElem?_eq_some_iff.1 hc
        rw [List.map_set]
        refine List.ext_getElem? fun k => ?_
        rw [List.getElem?_set]
        split
        · next hk =>
          subst hk
          rw [List.getElem?_map, hc, List.length_map, if_pos hlt]
          rfl
        · rfl

end Rewritten

/-- How an operation ends that has rewritten a model: it marks the list that it edits as the user's,
unless it fails, or it edits no list. -/
inductive Concludes (edited? : Option Side) (flagged : Side → Prop) (m : Model) : Edit Value → Prop
  | marks {m' : Model} {side : Side} {v : Value} {events : List Event} (hside : edited? = some side)
      (h : Rewritten (edited? = some ·) flagged m m') :
      Concludes edited? flagged m { model := m'.touch side.key, result := .ok v, events }
  | fails {m' : Model} {fault : Fault} {events : List Event}
      (h : Rewritten (edited? = some ·) flagged m m') :
      Concludes edited? flagged m { model := m', result := .error fault, events }
  | flags {m' : Model} {result : Except Fault Value} {events : List Event} (hnone : edited? = none)
      (h : Rewritten (edited? = some ·) flagged m m') :
      Concludes edited? flagged m { model := m', result, events }

namespace Concludes

variable {edited? : Option Side} {edit : Edit Value}

/-- An operation that succeeds leaves the list that it edits as the user's. -/
theorem source_of_edited (h : Concludes edited? flagged m edit) {side : Side}
    (hside : edited? = some side) {v : Value} (hok : edit.result = .ok v) :
    edit.model.source? side.key = some .user := by
  cases h with
  | marks hmarked h =>
    cases hmarked.symm.trans hside
    obtain ⟨entries, hentries⟩ := h.lists side
    obtain ⟨e, he, -⟩ := Option.map_eq_some_iff.1 hentries
    rw [Model.source?_touch, if_pos rfl, Model.source?, he]
    rfl
  | fails h => cases hok
  | flags hnone h => cases hnone.symm.trans hside

/-- The source of a list stays that is not edited, and that of both where the operation fails. -/
theorem source_of_kept (h : Concludes edited? flagged m edit) {side : Side}
    (hside : edited? ≠ some side ∨ ∃ fault, edit.result = .error fault) :
    edit.model.source? side.key = m.source? side.key := by
  cases h with
  | marks hmarked h =>
    rw [Model.source?_touch, if_neg, h.source]
    intro hkey
    cases Side.key_inj.1 hkey
    rcases hside with hside | ⟨fault, hfault⟩
    · exact hside hmarked
    · cases hfault
  | fails h => exact h.source side
  | flags hnone h => exact h.source side

/-- Marking a list leaves what both lists hold. -/
theorem rewritten (h : Concludes edited? flagged m edit) :
    ∃ m', Rewritten (edited? = some ·) flagged m m' ∧
      ∀ side : Side, edit.model.value? side.key = m'.value? side.key ∧
        (edited? ≠ some side → edit.model.find? side.key = m'.find? side.key) := by
  cases h with
  | @marks m' marked v events hmarked h =>
    refine ⟨m', h, fun side => ⟨m'.value?_touch marked.key side.key, fun hside => ?_⟩⟩
    refine (m'.find?_adjust ..).trans (if_neg fun hkey => ?_)
    cases Side.key_inj.1 hkey
    exact hside hmarked
  | fails h => exact ⟨_, h, fun _ => ⟨rfl, fun _ => rfl⟩⟩
  | flags hnone h => exact ⟨_, h, fun _ => ⟨rfl, fun _ => rfl⟩⟩

end Concludes

end Mapping

/-- A payload that is a text can be normalised. -/
theorem Column.exists_normalise (c : Column) (s : String) :
    ∃ read, ColumnOf.normalise { c with payload := .text s } = .ok read := by
  have hread : ∃ document, ColumnOf.readPayload (Value.text s) = .ok document := by
    unfold ColumnOf.readPayload
    dsimp only [Datum.text?]
    split
    · exact ⟨_, rfl⟩
    · exact ⟨_, rfl⟩
  obtain ⟨document, hread⟩ := hread
  unfold ColumnOf.normalise
  dsimp only
  split
  · rw [hread]
    cases document with
    | none => exact ⟨_, rfl⟩
    | some document => exact ⟨_, rfl⟩
  · exact ⟨_, rfl⟩

namespace EditorCall

variable {m : Model} {call : EditorCall}

/-- An operation of the user that does not miss its list rewrites the model and marks the list that
it edits. -/
theorem concludes_perform (h : Mapping.HoldsLists m) (hcall : call.OfUser)
    (hhits : ¬ call.Misses fun side => (Mapping.items m side).length) :
    Mapping.Concludes call.edited? call.Reflags m (call.perform m) := by
  have hrepair := h.repair
  have hboth := h.repairBoth
  have hnothing : Mapping.Rewritten (call.edited? = some ·) call.Reflags m m := .refl h
  cases call with
  | add side =>
    unfold perform Mapping.add
    dsimp only
    rw [hrepair]
    exact .marks rfl (hnothing.store _ (.inl rfl))
  | remove side index =>
    unfold perform Mapping.remove
    dsimp only
    rw [hrepair, hboth]
    split
    · next hmisses => exact absurd (Mapping.slot?_eq_none.1 hmisses) hhits
    · next i _ =>
      have hflagged := hnothing.setFlags false [(.source, i), (.target, i)] fun _ _ => trivial
      split
      · exact .fails hflagged
      · exact .marks rfl (hflagged.store _ (.inl rfl))
  | move side index direction =>
    unfold perform Mapping.move
    dsimp only
    rw [hrepair]
    split
    · exact .fails hnothing
    · next word hword =>
      split
      · next i j _ _ =>
        have hflagged := hnothing.setFlags false [(side, i), (side, j)] (by simp [Reflags])
        split
        · exact .fails hflagged
        · exact .marks rfl (hflagged.store _ (.inl rfl))
      · next hnone =>
        refine absurd ⟨word, hword, ?_⟩ hhits
        by_contra hrange
        rw [not_or, ← Mapping.slot?_eq_none, ← Mapping.slot?_eq_none] at hrange
        obtain ⟨i, hi⟩ := Option.ne_none_iff_exists'.1 hrange.1
        obtain ⟨j, hj⟩ := Option.ne_none_iff_exists'.1 hrange.2
        exact hnone i j hi hj
  | connect index on =>
    unfold perform Mapping.connect
    dsimp only
    rw [hboth]
    split
    · next i j _ _ =>
      exact .flags rfl (hnothing.setFlags on [(.source, i), (.target, j)] fun _ _ => trivial)
    · exact .flags rfl hnothing
  | connectAll on =>
    unfold perform Mapping.connectAll
    dsimp only
    rw [hboth]
    exact .flags rfl (hnothing.setFlags on _ fun _ _ => trivial)
  | update side index name payload =>
    unfold perform Mapping.update
    dsimp only
    rw [hrepair]
    split
    · next hmisses => exact absurd (Mapping.slot?_eq_none.1 hmisses) hhits
    · next i _ =>
      split
      · exact .fails hnothing
      · next entry _ =>
        have hnamed : Mapping.Rewritten _ _ m
            (Mapping.store m side ((Mapping.items m side).set i entry)) :=
          hnothing.store _ (.inl rfl)
        split
        · exact .marks rfl hnamed
        · split
          · exact .fails hnamed
          · split
            · exact .fails (hnamed.store _ (.inl rfl))
            · exact .marks rfl (hnamed.store _ (.inl rfl))
  | _ => exact hcall.elim

/-- On two lists of records an operation of the user whose arguments are of their kinds succeeds. -/
theorem succeeds_perform {records : Side → List Column} (h : Mapping.HoldsRecords m records)
    (hcall : call.OfUser) (hformed : call.WellFormed) :
    ∃ v, (call.perform m).result = .ok v := by
  have hshown := Mapping.shown_iff_holdsRecords.2 h
  have hrepair := h.lists.repair
  have hboth := h.lists.repairBoth
  have hset (on : Bool) (flags : List (Side × Nat)) :
      (Mapping.setFlags m on flags).2 = .ok () := by
    obtain ⟨m', hset, -⟩ := hshown.setFlags on flags (fun _ _ => trivial) fun _ _ => rfl
    rw [hset]
  cases call with
  | add side => exact ⟨_, rfl⟩
  | remove side index =>
    unfold perform Mapping.remove
    dsimp only
    rw [hrepair, hboth]
    split
    · exact ⟨_, rfl⟩
    · rw [hset]
      exact ⟨_, rfl⟩
  | move side index direction =>
    obtain ⟨word, hword⟩ := hformed
    unfold perform Mapping.move
    dsimp only
    rw [hrepair, hword]
    dsimp only
    split
    · rw [hset]
      exact ⟨_, rfl⟩
    · exact ⟨_, rfl⟩
  | connect index on =>
    unfold perform Mapping.connect
    dsimp only
    rw [hboth]
    split
    · dsimp only [Edit.map]
      rw [hset]
      exact ⟨_, rfl⟩
    · exact ⟨_, rfl⟩
  | connectAll on =>
    unfold perform Mapping.connectAll
    dsimp only [Edit.map]
    rw [hboth, hset]
    exact ⟨_, rfl⟩
  | update side index name payload =>
    unfold perform Mapping.update
    dsimp only
    rw [hrepair]
    split
    · exact ⟨_, rfl⟩
    · next i hi =>
      have hlt := (Mapping.slot?_eq_some.1 hi).2
      obtain ⟨c, hc⟩ : ∃ c, (Mapping.items m side)[i]? = some (.column c) := by
        rw [hshown.length_items] at hlt
        exact ⟨_, (hshown.getElem?_items side i).trans
          (congrArg (Option.map _) (List.getElem?_eq_getElem hlt))⟩
      simp only [hc, Option.getD_some, Mapping.rename_column]
      cases payload with
      | none => exact ⟨_, rfl⟩
      | some payload =>
        obtain ⟨s, rfl⟩ := hformed payload rfl
        obtain ⟨read, hread⟩ := Column.exists_normalise { c with name := name.getD c.name } s
        dsimp only [Value.asColumn]
        rw [hread]
        exact ⟨_, rfl⟩
  | _ => exact hcall.elim

/-- The operations of the user mark what they edit. From a model that holds two lists each operation
reaches one that does so again. An operation that misses its list leaves the whole model. One that
edits a list and neither misses it nor fails leaves it as the user's; the source of any other list
stays, and that of both lists where the operation fails. A list that is not edited keeps its entries
but for their flags, and these too unless the operation sets flags in it: so of an operation that
succeeds a list that differs afterwards is the user's, or only its flags were set. On lists of
records an operation succeeds whose arguments are of their kinds. -/
theorem edited_marked (h : Mapping.HoldsLists m) (hcall : call.OfUser) :
    Mapping.HoldsLists (call.perform m).model ∧
    (call.Misses (fun side => (Mapping.items m side).length) →
      call.perform m = { model := m, result := .ok call.refusal }) ∧
    (∀ side v, call.edited? = some side →
      ¬ call.Misses (fun side => (Mapping.items m side).length) →
      (call.perform m).result = .ok v →
      (call.perform m).model.source? side.key = some .user) ∧
    (∀ side : Side,
      (call.edited? ≠ some side ∨ ∃ fault, (call.perform m).result = .error fault) →
      (call.perform m).model.source? side.key = m.source? side.key) ∧
    (∀ side, call.edited? ≠ some side →
      (Mapping.items (call.perform m).model side).map Value.unflagged =
        (Mapping.items m side).map Value.unflagged ∧
      (¬ call.Reflags side → (call.perform m).model.find? side.key = m.find? side.key)) ∧
    (∀ side v, (call.perform m).result = .ok v →
      Mapping.items (call.perform m).model side ≠ Mapping.items m side →
      (call.perform m).model.source? side.key = some .user ∨
        call.edited? ≠ some side ∧ call.Reflags side) ∧
    ∀ records, Mapping.HoldsRecords m records → call.WellFormed →
      ∃ v, (call.perform m).result = .ok v := by
  by_cases hmisses : call.Misses fun side => (Mapping.items m side).length
  · have hsame := perform_of_misses_lists h hmisses
    rw [hsame]
    exact ⟨h, fun _ => rfl, fun _ _ _ hhits => absurd hmisses hhits, fun _ _ => rfl,
      fun _ _ => ⟨rfl, fun _ => rfl⟩, fun _ _ _ hdiffers => absurd rfl hdiffers,
      fun _ _ _ => ⟨_, rfl⟩⟩
  · have hends := concludes_perform h hcall hmisses
    obtain ⟨m', hrewritten, hvalues⟩ := hends.rewritten
    have hitems (side : Side) : Mapping.items (call.perform m).model side = Mapping.items m' side :=
      Mapping.items_congr (hvalues side).1
    have hkept (side : Side) (hside : call.edited? ≠ some side) (hflags : ¬ call.Reflags side) :
        (call.perform m).model.find? side.key = m.find? side.key :=
      ((hvalues side).2 hside).trans (hrewritten.same side hside hflags)
    refine ⟨fun side => ?_, fun hmissed => absurd hmissed hmisses,
      fun side v hside _ => hends.source_of_edited hside, fun side => hends.source_of_kept,
      fun side hside => ⟨?_, hkept side hside⟩, fun side v hok hdiffers => ?_,
      fun records hrecords => succeeds_perform hrecords hcall⟩
    · rw [(hvalues side).1]
      exact hrewritten.lists side
    · rw [hitems]
      exact hrewritten.contents side hside
    · by_cases hside : call.edited? = some side
      · exact .inl (hends.source_of_edited hside hok)
      · refine .inr ⟨hside, ?_⟩
        by_contra hflags
        exact hdiffers (Mapping.items_congr (Model.value?_congr (hkept side hside hflags)))

/-- A record of the user's list beside an empty one of the other list, both connected or neither. -/
def pairRecords (on : Bool) : Side → List Column
  | .source => [{ Column.empty with name := .text "id", connected := on }]
  | .target => [Column.empty.flagged on]

/-- A model that holds the pair; the other list has come about by itself. -/
def pairModel (on : Bool) : Model :=
  ⟨[(Keys.sourceColumns, { value := .list ((pairRecords on .source).map .column), source := .user }),
    (Keys.targetColumns, { value := .list ((pairRecords on .target).map .column) })]⟩

/-- The model holds the pair. -/
theorem holdsRecords_pairModel (on : Bool) : Mapping.HoldsRecords (pairModel on) (pairRecords on) := by
  intro side
  cases side <;> rfl

/-- Naming the record of the target list makes that list the user's. -/
theorem edited_marked_update :
    let naming : EditorCall := .update .target 0 (some (.text "key")) none
    Mapping.HoldsLists (pairModel true) ∧ naming.OfUser ∧
      (naming.perform (pairModel true)).model.source? Keys.targetColumns = some .user ∧
      (naming.perform (pairModel true)).model.find? Keys.sourceColumns =
        (pairModel true).find? Keys.sourceColumns := by
  intro naming
  have hlists := (holdsRecords_pairModel true).lists
  have huser : naming.OfUser := trivial
  obtain ⟨-, -, hmarked, -, hkept, -, hsucceeds⟩ := edited_marked hlists huser
  obtain ⟨v, hok⟩ := hsucceeds _ (holdsRecords_pairModel true) fun _ hv => nomatch hv
  have hhits : ¬ naming.Misses fun side => (Mapping.items (pairModel true) side).length := by
    rintro (hlow | hhigh)
    · exact absurd hlow (by decide)
    · exact absurd hhigh (by decide)
  exact ⟨hlists, huser, hmarked .target v rfl hhits hok, (hkept .source nofun).2 id⟩

/-- Connecting the pair sets the flag of the record in the target list, and the source of that list
stays the default. -/
theorem connect_unmarked :
    Mapping.HoldsRecords (pairModel false) (pairRecords false) ∧
      (perform (pairModel false) (.connect 0 true)).result = .ok (.bool true) ∧
      Mapping.HoldsRecords (perform (pairModel false) (.connect 0 true)).model (pairRecords true) ∧
      pairRecords true .target ≠ pairRecords false .target ∧
      (perform (pairModel false) (.connect 0 true)).model.source? Keys.targetColumns =
        some .default := by
  refine ⟨holdsRecords_pairModel false, rfl, fun side => ?_, ?_, rfl⟩
  · cases side <;> rfl
  · intro hsame
    have hflags := congrArg (List.map (·.connected)) hsame
    exact absurd hflags (by decide)

end EditorCall

end SyncForm
