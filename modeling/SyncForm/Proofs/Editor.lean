import Mathlib.Data.List.InsertIdx
import SyncForm.Proofs.Balance

/-!
# The mapping editor on lists of records

On a model whose column lists are lists of records every operation of the editor sets some flags and
then edits each list once: it keeps the list, appends to it, erases, exchanges or revises records of
it (`ListEdit`). Which flags are set (`EditorCall.marks`) and which edit is made (`EditorCall.edit`)
depends on the operation and on the lengths of both lists. `Mapping.Shown` says what the editor
reads of a model, and `EditorCall.shown_perform` what it reads after an operation.
-/

namespace SyncForm

/-! ## Edits of a list -/

/-- What an operation does to one list. -/
inductive ListEdit where
  | keep
  | append (n : Nat)
  | erase (i : Nat)
  | swap (i j : Nat)
  | revise (i : Nat) (name payload : Option Value)

/-- The list after an edit, given the item that is appended and how an item is revised. -/
def ListEdit.apply {α : Type} (new : α) (revised : Option Value → Option Value → α → α) :
    ListEdit → List α → List α
  | keep, xs => xs
  | append n, xs => xs ++ List.replicate n new
  | erase i, xs => xs.eraseIdx i
  | swap i j, xs => Mapping.swap xs i j
  | revise i name payload, xs => xs.modify i (revised name payload)

/-- The record with another flag. -/
def Column.flagged (on : Bool) (c : Column) : Column :=
  { c with connected := on }

/-- The record after a revision: with another name and payload where they are given, a readable
payload indented and an unreadable one cleared. A payload that is no text stays as it is. -/
def Column.revised (name payload : Option Value) (c : Column) : Column :=
  let c := { c with name := name.getD c.name }
  match payload with
  | none => c
  | some payload =>
    match ColumnOf.normalise { c with payload } with
    | .ok (_, c) => c
    | .error _ => { c with payload }

namespace Mapping

/-- The records with the flags at some positions set. -/
def mark (on : Bool) (p : Nat → Bool) (cs : List Column) : List Column :=
  cs.mapIdx fun k c => if p k then c.flagged on else c

/-- The position that an index means in a list of some length, if it is in range. -/
def slot? (length : Nat) (index : Int) : Option Nat :=
  if 0 ≤ index ∧ index < length then some index.toNat else none

/-- The index beside another one. -/
def neighbour (index : Int) (direction : Direction) : Int :=
  if direction = .up then index - 1 else index + 1

/-- The two positions that a move exchanges, if both are in range. -/
def slots? (length : Nat) (index : Int) (direction : Direction) : Option (Nat × Nat) :=
  match slot? length index, slot? length (neighbour index direction) with
  | some i, some j => some (i, j)
  | _, _ => none

/-- Setting flags acts on each record alone. -/
@[simp] theorem getElem?_mark (on : Bool) (p : Nat → Bool) (cs : List Column) (k : Nat) :
    (mark on p cs)[k]? = cs[k]?.map fun c => if p k then c.flagged on else c :=
  List.getElem?_mapIdx

/-- Where no flag is set the records stay. -/
@[simp] theorem mark_none (on : Bool) (cs : List Column) : mark on (fun _ => false) cs = cs := by
  refine List.ext_getElem? fun k => ?_
  simp

/-- Flags that are set in two stretches are set at once. -/
theorem mark_mark (on : Bool) (p q : Nat → Bool) (cs : List Column) :
    mark on p (mark on q cs) = mark on (fun k => p k || q k) cs := by
  refine List.ext_getElem? fun k => ?_
  rw [getElem?_mark, getElem?_mark, getElem?_mark, Option.map_map]
  refine congrArg (Option.map · _) (funext fun c => ?_)
  cases p k <;> cases q k <;> rfl

/-- An index is out of range of a list of some length. -/
def OutOfRange (length : Nat) (index : Int) : Prop :=
  index < 0 ∨ (length : Int) ≤ index

/-- An index means a position just where it is that position in range. -/
theorem slot?_eq_some {length : Nat} {index : Int} {i : Nat} :
    slot? length index = some i ↔ index = i ∧ i < length := by
  unfold slot?
  split
  · rw [Option.some.injEq]
    omega
  · refine iff_of_false (by simp) ?_
    omega

/-- An index means no position just where it is out of range. -/
theorem slot?_eq_none {length : Nat} {index : Int} :
    slot? length index = none ↔ OutOfRange length index := by
  unfold slot? OutOfRange
  split
  · refine iff_of_false (by simp) ?_
    omega
  · refine iff_of_true rfl ?_
    omega

/-- Exchanging two items commutes with changing every item. -/
theorem swap_map {α β : Type} (f : α → β) (xs : List α) (i j : Nat) :
    swap (xs.map f) i j = (swap xs i j).map f := by
  unfold swap
  rw [List.getElem?_map, List.getElem?_map]
  cases xs[i]? with
  | none => rfl
  | some a =>
    cases xs[j]? with
    | none => rfl
    | some b => simp [List.map_set]

end Mapping

/-- Changing every item commutes with an edit that the change respects. -/
theorem ListEdit.map_apply {α β : Type} {new : α} {new' : β}
    {revised : Option Value → Option Value → α → α} {revised' : Option Value → Option Value → β → β}
    {f : α → β} (hnew : f new = new')
    (hrevised : ∀ name payload a, f (revised name payload a) = revised' name payload (f a))
    (edit : ListEdit) (xs : List α) :
    (edit.apply new revised xs).map f = edit.apply new' revised' (xs.map f) := by
  cases edit with
  | keep => rfl
  | append n => simp [apply, hnew]
  | erase i => exact (List.eraseIdx_map f xs i).symm
  | swap i j => exact (Mapping.swap_map f xs i j).symm
  | revise i name payload =>
    refine List.ext_getElem? fun k => ?_
    simp only [apply, List.getElem?_map, List.getElem?_modify]
    cases xs[k]? with
    | none => rfl
    | some a =>
      simp only [Option.map_eq_map, Option.map_some]
      split
      · rw [hrevised]
      · rfl

/-! ## What an operation does to the lists -/

/-- The lengths of both lists. -/
def lengths (records : Side → List Column) (side : Side) : Nat :=
  (records side).length

namespace EditorCall

/-- The flag that an operation sets. -/
def flag : EditorCall → Bool
  | connect _ on => on
  | connectAll on => on
  | _ => false

/-- The positions of a side whose flags an operation sets, by the lengths of both lists. -/
def marks (length : Side → Nat) : EditorCall → Side → Nat → Bool
  | remove side index, _ => fun k => Mapping.slot? (length side) index == some k
  | move side index direction, s => fun k =>
    match Direction.ofValue direction with
    | .error _ => false
    | .ok direction =>
      s == side && (Mapping.slots? (length side) index direction).any fun (i, j) => k == i || k == j
  | connect index _, _ => fun k =>
    Mapping.slot? (length .source) index == some k && Mapping.slot? (length .target) index == some k
  | connectAll _, _ => fun k => k < min (length .source) (length .target)
  | _, _ => fun _ => false

/-- What an operation does to the list of a side, by the lengths of both lists. -/
def edit (length : Side → Nat) : EditorCall → Side → ListEdit
  | add side, s => if s = side then .append 1 else .keep
  | remove side index, s =>
    if s = side then ((Mapping.slot? (length side) index).map .erase).getD .keep else .keep
  | move side index direction, s =>
    match Direction.ofValue direction with
    | .error _ => .keep
    | .ok direction =>
      if s = side then
        ((Mapping.slots? (length side) index direction).map fun (i, j) => .swap i j).getD .keep
      else .keep
  | connect _ _, _ => .keep
  | connectAll _, _ => .keep
  | reconcile _, .source => .append (length .target - length .source)
  | reconcile singleSink, .target =>
    if singleSink then .append (length .source - length .target) else .keep
  | update side index name payload, s =>
    if s = side then
      ((Mapping.slot? (length side) index).map (.revise · name payload)).getD .keep
    else .keep
  | summary, _ => .keep
  | validate _, _ => .keep

/-- The records of both sides after an operation. -/
def records (call : EditorCall) (before : Side → List Column) (side : Side) : List Column :=
  (call.edit (lengths before) side).apply Column.empty Column.revised
    (Mapping.mark call.flag (call.marks (lengths before) side) (before side))

/-- The records of both sides after some operations. -/
def recordsAll (calls : List EditorCall) (before : Side → List Column) : Side → List Column :=
  calls.foldl (fun records call => call.records records) before

end EditorCall

/-! ## Operations on a model -/

/-- The model after some operations of the editor. -/
def EditorCall.performAll (m : Model) (calls : List EditorCall) : Model :=
  calls.foldl (fun m call => (call.perform m).model) m

namespace Mapping

variable {m : Model} {listed : Side → Prop} {records : Side → List Column}

/-- A model holds these records under the keys of both lists. -/
def HoldsRecords (m : Model) (records : Side → List Column) : Prop :=
  ∀ side : Side, m.value? side.key = some (.list ((records side).map .column))

/-- The editor reads these records from a model; on the sides that are `listed` it reads them from a
list that the model holds. -/
structure Shown (m : Model) (listed : Side → Prop) (records : Side → List Column) : Prop where
  items : ∀ side, items m side = (records side).map .column
  listed : ∀ side, listed side → ∃ entries, m.value? side.key = some (.list entries)

/-- The entries of a side depend on its value alone. -/
theorem items_congr {m m' : Model} {side : Side} (h : m'.value? side.key = m.value? side.key) :
    Mapping.items m' side = Mapping.items m side := by
  unfold Mapping.items Model.get
  rw [h]

/-- A repair puts the entries of its side into a list and leaves the other side. -/
theorem value?_repair (m : Model) (side s : Side) : (repair m side).value? s.key =
    if s = side then some (.list (Mapping.items m side)) else m.value? s.key := by
  split
  · next hs =>
    subst hs
    exact value?_repair_self m s
  · next hs => exact Model.value?_congr (find?_repair m side (mt Side.key_inj.1 hs))

/-- Storing a list replaces the value of its side. -/
theorem value?_store (m : Model) (side : Side) (entries : List Value) (s : Side) :
    (store m side entries).value? s.key =
      if s = side then (m.value? s.key).map fun _ => .list entries else m.value? s.key := by
  simp only [store, Model.value?_replace, Side.key_inj, eq_comm]

/-- A record can be renamed. -/
theorem rename_column (name : Option Value) (c : Column) :
    rename name (.column c) = .ok (.column { c with name := name.getD c.name }) := by
  cases name <;> rfl

/-- A model holds records just where the editor reads them from two lists. -/
theorem shown_iff_holdsRecords :
    Shown m (fun _ => True) records ↔ HoldsRecords m records := by
  constructor
  · intro h side
    obtain ⟨entries, hentries⟩ := h.listed side trivial
    rw [hentries, ← items_eq hentries, h.items]
  · intro h
    exact ⟨fun side => items_eq (h side), fun side _ => ⟨_, h side⟩⟩

namespace Shown

/-- What is read from more lists is read from fewer. -/
theorem mono {listed' : Side → Prop} (h : Shown m listed records)
    (hlisted : ∀ side, listed' side → listed side) : Shown m listed' records :=
  ⟨h.items, fun side hside => h.listed side (hlisted side hside)⟩

/-- A repair changes nothing that the editor reads; afterwards the side is a list. -/
theorem repair (h : Shown m listed records) (side : Side) :
    Shown (Mapping.repair m side) (fun s => s = side ∨ listed s) records where
  items s := by
    by_cases hs : s = side
    · subst hs
      exact (items_eq (value?_repair_self m s)).trans (h.items s)
    · rw [items_congr ((value?_repair m side s).trans (if_neg hs)), h.items]
  listed s hlisted := by
    rw [value?_repair]
    split
    · exact ⟨_, rfl⟩
    · next hs => exact h.listed s (hlisted.resolve_left hs)

/-- Once both sides are repaired both are lists. -/
theorem repairBoth (h : Shown m listed records) :
    Shown (Mapping.repairBoth m) (fun _ => True) records :=
  ((h.repair .source).repair .target).mono fun side _ => by cases side <;> simp

/-- Storing records under a list replaces what the editor reads there. -/
theorem store (h : Shown m listed records) {side : Side} (hside : listed side)
    (cs : List Column) :
    Shown (Mapping.store m side (cs.map .column)) listed (Function.update records side cs) where
  items s := by
    by_cases hs : s = side
    · subst hs
      obtain ⟨entries, hentries⟩ := h.listed s hside
      rw [Function.update_self]
      refine items_eq ?_
      rw [value?_store, if_pos rfl, hentries]
      rfl
    · rw [Function.update_of_ne hs, items_congr ((value?_store m side _ s).trans (if_neg hs)),
        h.items]
  listed s hlisted := by
    obtain ⟨entries, hentries⟩ := h.listed s hlisted
    rw [value?_store, hentries]
    split
    · exact ⟨_, rfl⟩
    · exact ⟨_, rfl⟩

/-- Marking a list as the user's changes nothing that the editor reads. -/
theorem touch (h : Shown m listed records) (key : String) : Shown (m.touch key) listed records where
  items s := (items_congr (m.value?_touch key s.key)).trans (h.items s)
  listed s hlisted := by
    rw [Model.value?_touch]
    exact h.listed s hlisted

/-- The entry that the editor reads at a position is the record there. -/
theorem getElem?_items (h : Shown m listed records) (side : Side) (i : Nat) :
    (Mapping.items m side)[i]? = (records side)[i]?.map .column := by
  rw [h.items, List.getElem?_map]

/-- The number of entries is that of the records. -/
theorem length_items (h : Shown m listed records) (side : Side) :
    (Mapping.items m side).length = lengths records side := by
  rw [h.items, List.length_map, lengths]

/-- An index means the same position among the entries as among the records. -/
theorem position?_items (h : Shown m listed records) (side : Side) (index : Int) :
    position? (Mapping.items m side) index = slot? (lengths records side) index := by
  rw [← h.length_items]
  rfl

/-- Setting one flag sets it on the record at its position, if there is one. -/
theorem setFlag (h : Shown m listed records) {side : Side} (hside : listed side) (i : Nat)
    (on : Bool) : ∃ m', Mapping.setFlag m side i on = .ok m' ∧
      Shown m' listed fun s => mark on (fun k => (s, k) == (side, i)) (records s) := by
  unfold Mapping.setFlag
  rw [h.getElem?_items]
  cases hc : (records side)[i]? with
  | none =>
    refine ⟨m, rfl, ?_⟩
    suffices hsame : (fun s => mark on (fun k => (s, k) == (side, i)) (records s)) = records by
      rw [hsame]
      exact h
    refine funext fun s => List.ext_getElem? fun k => ?_
    rw [getElem?_mark]
    by_cases hk : (s, k) = (side, i)
    · cases hk
      rw [hc]
      rfl
    · simp [hk]
  | some c =>
    refine ⟨_, rfl, ?_⟩
    have hentries : (Mapping.items m side).set i (.column { c with connected := on }) =
        (mark on (fun k => (side, k) == (side, i)) (records side)).map .column := by
      refine List.ext_getElem? fun k => ?_
      rw [h.items, List.getElem?_set, List.getElem?_map, List.getElem?_map, getElem?_mark,
        List.length_map]
      by_cases hk : i = k
      · subst hk
        obtain ⟨hlt, rfl⟩ := List.getElem?_eq_some_iff.1 hc
        simp [hlt, Column.flagged]
      · simp [hk, Ne.symm hk]
    rw [hentries]
    suffices hupdate : (fun s => mark on (fun k => (s, k) == (side, i)) (records s)) =
        Function.update records side (mark on (fun k => (side, k) == (side, i)) (records side)) by
      rw [hupdate]
      exact h.store hside _
    refine funext fun s => ?_
    by_cases hs : s = side
    · subst hs
      rw [Function.update_self]
    · rw [Function.update_of_ne hs]
      have hnone : (fun k => (s, k) == (side, i)) = fun _ => false := by
        funext k
        simp [hs]
      rw [hnone, mark_none]

/-- Setting flags succeeds, and sets them on the records at their positions. -/
theorem setFlags (h : Shown m listed records) (on : Bool) (flags : List (Side × Nat))
    {p : Side → Nat → Bool} (hflags : ∀ flag ∈ flags, listed flag.1)
    (hp : ∀ s k, p s k = flags.contains (s, k)) :
    ∃ m', Mapping.setFlags m on flags = (m', .ok ()) ∧
      Shown m' listed fun s => mark on (p s) (records s) := by
  obtain rfl : p = fun s k => flags.contains (s, k) := funext fun s => funext (hp s)
  clear hp
  induction flags generalizing m records with
  | nil =>
    refine ⟨m, rfl, ?_⟩
    simpa using h
  | cons flag rest ih =>
    obtain ⟨side, i⟩ := flag
    obtain ⟨m₁, hset, h₁⟩ := h.setFlag (hflags (side, i) (.head _)) i on
    obtain ⟨m₂, hrest, h₂⟩ := ih h₁ fun other hother => hflags other (.tail _ hother)
    refine ⟨m₂, ?_, ?_⟩
    · rw [Mapping.setFlags, hset]
      exact hrest
    · simp only [mark_mark] at h₂
      simp only [List.contains_cons, Bool.or_comm ((_, _) == (side, i))]
      exact h₂

/-- What is read of equal records is read of the records. -/
theorem congr {records' : Side → List Column} (h : Shown m listed records)
    (hrecords : ∀ side, records' side = records side) : Shown m listed records' := by
  rwa [funext hrecords]

/-! ### The operations -/

attribute [local simp] EditorCall.records EditorCall.edit EditorCall.flag EditorCall.marks
  ListEdit.apply

/-- Adding a record appends an empty one to its list. -/
theorem add (h : Shown m listed records) (side : Side) :
    Shown (Mapping.add m side).model listed ((EditorCall.add side).records records) := by
  have hrepair := h.repair side
  have hentries : Mapping.items (Mapping.repair m side) side ++ [.column Column.empty] =
      (records side ++ [Column.empty]).map .column := by
    rw [hrepair.items, List.map_append]
    rfl
  unfold Mapping.add
  dsimp only
  rw [hentries]
  refine (((hrepair.store (.inl rfl) _).touch side.key).mono fun _ => .inr).congr fun s => ?_
  by_cases hs : s = side
  · subst hs
    simp
  · simp [hs]

/-- Removing a record severs the connection through its position and erases it from its list. -/
theorem remove (h : Shown m listed records) (side : Side) (index : Int) :
    Shown (Mapping.remove m side index).model listed
      ((EditorCall.remove side index).records records) := by
  have hrepair := h.repair side
  unfold Mapping.remove
  dsimp only
  rw [hrepair.position?_items]
  cases hi : slot? (lengths records side) index with
  | none =>
    refine (hrepair.mono fun _ => .inr).congr fun s => ?_
    simp [hi]
  | some i =>
    obtain ⟨m₁, hset, h₁⟩ := hrepair.repairBoth.setFlags false [(.source, i), (.target, i)]
      (p := (EditorCall.remove side index).marks (lengths records))
      (fun _ _ => trivial) fun s k => by
        rw [Bool.eq_iff_iff]
        cases s <;> simp [hi, @eq_comm _ k i]
    simp only [hset, h₁.items, List.eraseIdx_map]
    refine (((h₁.store trivial _).touch side.key).mono fun _ _ => trivial).congr fun s => ?_
    by_cases hs : s = side
    · subst hs
      simp [hi]
    · simp [hs]

/-- Moving a record severs the connections of both records that change places. -/
theorem move (h : Shown m listed records) (side : Side) (index : Int) (direction : Value) :
    Shown (Mapping.move m side index direction).model listed
      ((EditorCall.move side index direction).records records) := by
  have hrepair := h.repair side
  unfold Mapping.move
  dsimp only
  cases hword : Direction.ofValue direction with
  | error fault =>
    refine (hrepair.mono fun _ => .inr).congr fun s => ?_
    simp [hword]
  | ok word =>
    dsimp only
    rw [hrepair.position?_items, hrepair.position?_items]
    cases hslots : slots? (lengths records side) index word with
    | none =>
      have hstay : Shown (Mapping.repair m side) listed
          ((EditorCall.move side index direction).records records) := by
        refine (hrepair.mono fun _ => .inr).congr fun s => ?_
        simp [hword, hslots]
      unfold slots? at hslots
      split at hslots
      · cases hslots
      · next hnone =>
        split
        · next i j hi hj => exact absurd hj (hnone i j hi)
        · exact hstay
    | some slots =>
      obtain ⟨i, j⟩ := slots
      have hboth := hslots
      unfold slots? at hboth
      split at hboth
      · next i' j' hi hj =>
        cases hboth
        unfold neighbour at hj
        rw [hi, hj]
        obtain ⟨m₁, hset, h₁⟩ := hrepair.setFlags false [(side, i), (side, j)]
          (p := (EditorCall.move side index direction).marks (lengths records))
          (by simp) fun s k => by
            rw [Bool.eq_iff_iff]
            simp [hword, hslots, and_or_left]
        simp only [hset, h₁.items, swap_map]
        refine (((h₁.store (.inl rfl) _).touch side.key).mono fun _ => .inr).congr fun s => ?_
        by_cases hs : s = side
        · subst hs
          simp [hword, hslots]
        · simp [hword, hs]
      · cases hboth

/-- Connecting sets the flags at one position of both lists. -/
theorem connect (h : Shown m listed records) (index : Int) (on : Bool) :
    Shown (Mapping.connect m index on).model listed
      ((EditorCall.connect index on).records records) := by
  have hrepair := h.repairBoth
  unfold Mapping.connect
  dsimp only
  rw [hrepair.position?_items, hrepair.position?_items]
  split
  · next i j hi hj =>
    obtain rfl : i = j := by
      have hi := slot?_eq_some.1 hi
      have hj := slot?_eq_some.1 hj
      omega
    obtain ⟨m₁, hset, h₁⟩ := hrepair.setFlags on [(.source, i), (.target, i)]
      (p := (EditorCall.connect index on).marks (lengths records))
      (fun _ _ => trivial) fun s k => by
        rw [Bool.eq_iff_iff]
        cases s <;> simp [hi, hj, @eq_comm _ k i]
    rw [hset]
    exact h₁.mono fun _ _ => trivial
  · next hnone =>
    refine (hrepair.mono fun _ _ => trivial).congr fun s => ?_
    have hmarks : (EditorCall.connect index on).marks (lengths records) s =
        fun _ => false := by
      funext k
      rw [EditorCall.marks, Bool.and_eq_false_iff, beq_eq_false_iff_ne, beq_eq_false_iff_ne]
      exact not_and_or.1 fun hboth => hnone k k hboth.1 hboth.2
    rw [EditorCall.records, hmarks, mark_none]
    rfl

/-- Connecting everything sets the flags at every position that both lists have. -/
theorem connectAll (h : Shown m listed records) (on : Bool) :
    Shown (Mapping.connectAll m on).model listed ((EditorCall.connectAll on).records records) := by
  have hrepair := h.repairBoth
  unfold Mapping.connectAll overlap
  dsimp only
  rw [hrepair.length_items, hrepair.length_items]
  obtain ⟨m₁, hset, h₁⟩ := hrepair.setFlags on
    ((List.range (min (lengths records .source) (lengths records .target))).flatMap
      fun i => [(.source, i), (.target, i)])
    (p := (EditorCall.connectAll on).marks (lengths records))
    (fun _ _ => trivial) fun s k => by
      rw [Bool.eq_iff_iff]
      cases s <;> simp
  rw [hset]
  exact h₁.mono fun _ _ => trivial

/-- Reconciling appends as many empty records to each list as it lacks; afterwards both are lists. -/
theorem reconcile (h : Shown m listed records) (singleSink : Bool) :
    Shown (Mapping.reconcile m singleSink).model (fun _ => True)
      ((EditorCall.reconcile singleSink).records records) where
  items side := by
    obtain ⟨hsource, htarget⟩ := items_reconcile m singleSink
    rw [h.items, h.items, List.length_map, List.length_map] at hsource htarget
    have hblanks (n : Nat) : blanks n = (List.replicate n Column.empty).map .column :=
      List.map_replicate.symm
    cases side with
    | source =>
      rw [hsource, hblanks, ← List.map_append]
      simp [lengths]
    | target =>
      rw [htarget]
      cases singleSink with
      | false =>
        simp
      | true =>
        have hlacking : (records .source).length +
            ((records .target).length - (records .source).length) - (records .target).length =
              (records .source).length - (records .target).length := by omega
        rw [if_pos rfl, hlacking, hblanks, ← List.map_append]
        simp [lengths]
  listed side _ := by
    have hboth := value?_repairBoth m side
    rcases reconcile_cases m singleSink with hmodel | ⟨grown, grown', -, hmodel⟩
    · rw [hmodel, hboth]
      exact ⟨_, rfl⟩
    · rw [hmodel, value?_store, value?_store, hboth]
      cases side <;> exact ⟨_, rfl⟩

/-- Storing a record at a position replaces the record there. -/
theorem put (h : Shown m listed records) {side : Side} (hside : listed side) (i : Nat)
    (c : Column) :
    Shown (Mapping.store m side ((Mapping.items m side).set i (.column c))) listed
      (Function.update records side ((records side).set i c)) := by
  rw [h.items, ← List.map_set]
  exact h.store hside _

/-- Updating a record revises it alone, even where its payload is no text. -/
theorem update (h : Shown m listed records) (side : Side) (index : Int)
    (name payload : Option Value) :
    Shown (Mapping.update m side index name payload).model listed
      ((EditorCall.update side index name payload).records records) := by
  have hrepair := h.repair side
  unfold Mapping.update
  dsimp only
  rw [hrepair.position?_items]
  cases hi : slot? (lengths records side) index with
  | none =>
    refine (hrepair.mono fun _ => .inr).congr fun s => ?_
    simp [hi]
  | some i =>
    obtain ⟨c, hc⟩ : ∃ c, (records side)[i]? = some c :=
      ⟨_, List.getElem?_eq_getElem (slot?_eq_some.1 hi).2⟩
    -- Whatever the payload, the model reached holds the revised record in place of the old one.
    have hdone {m' : Model} {c' : Column} (hc' : c.revised name payload = c')
        (hm : Shown m' (fun s => s = side ∨ listed s)
          (Function.update records side ((records side).set i c'))) :
        Shown m' listed ((EditorCall.update side index name payload).records records) := by
      refine (hm.mono fun _ => .inr).congr fun s => ?_
      by_cases hs : s = side
      · subst hs
        simp [hi, List.modify_eq_set_getElem?, hc, hc']
      · simp [hs]
    simp only [hrepair.getElem?_items, hc, Option.map_some, Option.getD_some, rename_column]
    have hnamed := hrepair.put (.inl rfl) i { c with name := name.getD c.name }
    cases payload with
    | none => exact hdone rfl (hnamed.touch side.key)
    | some payload =>
      have hput (c' : Column) := hnamed.put (.inl rfl) i c'
      simp only [Function.update_self, Function.update_idem, List.set_set] at hput
      dsimp only [Value.asColumn]
      cases hnormal : ColumnOf.normalise { c with name := name.getD c.name, payload } with
      | error fault =>
        refine hdone ?_ (hput { c with name := name.getD c.name, payload })
        simp only [Column.revised, hnormal]
      | ok read =>
        obtain ⟨accepted, c'⟩ := read
        refine hdone ?_ ((hput c').touch side.key)
        simp only [Column.revised, hnormal]

end Shown

end Mapping

/-- After an operation the editor reads the records that the operation makes of those before. -/
theorem EditorCall.shown_perform {m : Model} {listed : Side → Prop} {before : Side → List Column}
    (h : Mapping.Shown m listed before) (call : EditorCall) :
    Mapping.Shown (call.perform m).model listed (call.records before) := by
  cases call with
  | add side => exact h.add side
  | remove side index => exact h.remove side index
  | move side index direction => exact h.move side index direction
  | connect index on => exact h.connect index on
  | connectAll on => exact h.connectAll on
  | reconcile singleSink => exact (h.reconcile singleSink).mono fun _ _ => trivial
  | update side index name payload => exact h.update side index name payload
  | summary =>
    refine (h.repairBoth.mono fun _ _ => trivial).congr fun s => ?_
    simp [records, edit, marks, ListEdit.apply]
  | validate singleSink =>
    refine (h.repairBoth.mono fun _ _ => trivial).congr fun s => ?_
    simp [records, edit, marks, ListEdit.apply]

/-- Operations on a model that holds records leave one that holds records. -/
theorem EditorCall.shown_performAll {m : Model} {listed : Side → Prop}
    {before : Side → List Column} (h : Mapping.Shown m listed before) (calls : List EditorCall) :
    Mapping.Shown (performAll m calls) listed (recordsAll calls before) := by
  induction calls generalizing m before with
  | nil => exact h
  | cons call rest ih => exact ih (shown_perform h call)

end SyncForm
