import Mathlib.Data.List.Perm.Basic
import SyncForm.Proofs.Editor

/-!
# The contents of the column lists

The contents of a record are all of it but its flag. What an operation of the editor makes of the
contents of both lists depends on these contents alone (`EditorCall.contents_records`): each list is
edited once, by `EditorCall.edit`. An edit neither loses nor duplicates an item
(`ListEdit.apply_perm`): what is in the list afterwards or was taken from it is what was in the list
before or was put into it. An index out of range leaves the whole model as it is
(`EditorCall.perform_of_misses`). `EditorCall.edits_lists` sums up.
-/

namespace SyncForm

/-! ## Edits and what they take and put -/

namespace ListEdit

variable {α : Type} (new : α) (revised : Option Value → Option Value → α → α)

/-- The items that an edit takes from a list; a revision takes the item as it was. -/
def taken : ListEdit → List α → List α
  | erase i, xs => xs[i]?.toList
  | revise i _ _, xs => xs[i]?.toList
  | _, _ => []

/-- The items that an edit puts into a list; a revision puts the item as it is revised. -/
def put : ListEdit → List α → List α
  | append n, _ => List.replicate n new
  | revise i name payload, xs => (xs[i]?.map (revised name payload)).toList
  | _, _ => []

end ListEdit

/-- Exchanging two items only reorders a list. -/
theorem Mapping.swap_perm {α : Type} (xs : List α) (i j : Nat) : (swap xs i j).Perm xs := by
  unfold swap
  split
  · next a b ha hb =>
    obtain ⟨hi, rfl⟩ := List.getElem?_eq_some_iff.1 ha
    obtain ⟨hj, rfl⟩ := List.getElem?_eq_some_iff.1 hb
    exact List.set_set_perm hi hj
  · exact .refl xs

/-- An edit neither loses nor duplicates an item. -/
theorem ListEdit.apply_perm {α : Type} (new : α) (revised : Option Value → Option Value → α → α)
    (edit : ListEdit) (xs : List α) :
    (edit.apply new revised xs ++ edit.taken xs).Perm (xs ++ edit.put new revised xs) := by
  cases edit with
  | keep => exact .refl _
  | append n => exact .of_eq (List.append_nil _)
  | swap i j => exact (Mapping.swap_perm xs i j).append_right []
  | erase i =>
    simp only [apply, taken, put, List.append_nil]
    cases hi : xs[i]? with
    | none =>
      rw [List.eraseIdx_of_length_le (List.getElem?_eq_none_iff.1 hi)]
      exact .of_eq (List.append_nil xs)
    | some a =>
      obtain ⟨hlt, rfl⟩ := List.getElem?_eq_some_iff.1 hi
      exact List.perm_append_comm.trans (List.getElem_cons_eraseIdx_perm hlt)
  | revise i name payload =>
    simp only [apply, taken, put, List.modify_eq_set_getElem?]
    cases hi : xs[i]? with
    | none => exact .refl _
    | some a =>
      obtain ⟨hlt, rfl⟩ := List.getElem?_eq_some_iff.1 hi
      -- Both sides are the item, its revision and the rest of the list.
      calc xs.set i (revised name payload xs[i]) ++ [xs[i]]
          |>.Perm (revised name payload xs[i] :: xs.eraseIdx i ++ [xs[i]]) :=
            (List.set_perm_cons_eraseIdx hlt _).append_right _
        _ |>.Perm (revised name payload xs[i] :: (xs[i] :: xs.eraseIdx i)) :=
            .cons _ List.perm_append_comm
        _ |>.Perm (revised name payload xs[i] :: xs) :=
            .cons _ (List.getElem_cons_eraseIdx_perm hlt)
        _ |>.Perm (xs ++ [revised name payload xs[i]]) := (List.perm_append_singleton _ _).symm

/-! ## Contents of records -/

/-- The contents of a record: all of it but its flag. -/
def Column.contents (c : Column) : Column :=
  c.flagged false

/-- The contents of the records of both sides. -/
def contents (records : Side → List Column) (side : Side) : List Column :=
  (records side).map Column.contents

/-- There are as many contents as records. -/
theorem lengths_contents (records : Side → List Column) :
    lengths (contents records) = lengths records :=
  funext fun _ => List.length_map _

namespace Column

/-- Normalising a record reads its payload alone. -/
theorem normalise_flagged (on : Bool) (c : Column) :
    (c.flagged on).normalise = c.normalise.map fun (accepted, c) => (accepted, flagged on c) := by
  unfold ColumnOf.normalise
  have hpayload : (c.flagged on).payload = c.payload := rfl
  rw [hpayload]
  split
  · cases ColumnOf.readPayload c.payload with
    | error fault => rfl
    | ok document => cases document <;> rfl
  · rfl

/-- A revision acts on the contents alone. -/
theorem contents_revised (name payload : Option Value) (c : Column) :
    (c.revised name payload).contents = c.contents.revised name payload := by
  cases payload with
  | none => rfl
  | some payload =>
    have hnormal := normalise_flagged false { c with name := name.getD c.name, payload }
    have hflagged : flagged false { c with name := name.getD c.name, payload } =
        { c.contents with name := name.getD c.contents.name, payload } := rfl
    rw [hflagged] at hnormal
    simp only [revised, hnormal]
    cases ColumnOf.normalise { c with name := name.getD c.name, payload } with
    | error fault => rfl
    | ok read => rfl

end Column

/-- Setting flags leaves the contents. -/
theorem Mapping.contents_mark (on : Bool) (p : Nat → Bool) (cs : List Column) :
    (mark on p cs).map Column.contents = cs.map Column.contents := by
  refine List.ext_getElem? fun k => ?_
  rw [List.getElem?_map, List.getElem?_map, getElem?_mark, Option.map_map]
  refine congrArg (Option.map · _) (funext fun c => ?_)
  dsimp only [Function.comp_apply]
  split <;> rfl

namespace EditorCall

/-- The contents of both lists after an operation, by those before. -/
def rewrite (call : EditorCall) (before : Side → List Column) (side : Side) : List Column :=
  (call.edit (lengths before) side).apply Column.empty Column.revised (before side)

/-- The contents of both lists after some operations, by those before. -/
def rewriteAll (calls : List EditorCall) (before : Side → List Column) : Side → List Column :=
  calls.foldl (fun contents call => call.rewrite contents) before

/-- What an operation makes of the contents depends on the contents alone. -/
theorem contents_records (call : EditorCall) (before : Side → List Column) :
    contents (call.records before) = call.rewrite (contents before) := by
  funext side
  rw [rewrite, lengths_contents]
  have hempty : Column.empty.contents = Column.empty := rfl
  unfold contents records
  rw [ListEdit.map_apply hempty Column.contents_revised, Mapping.contents_mark]

/-- The contents that some operations take from each list. -/
def taken : List EditorCall → (Side → List Column) → Side → List Column
  | [], _, _ => []
  | call :: rest, before, side =>
    taken rest (call.rewrite before) side ++
      (call.edit (lengths before) side).taken (before side)

/-- The contents that some operations put into each list. -/
def put : List EditorCall → (Side → List Column) → Side → List Column
  | [], _, _ => []
  | call :: rest, before, side =>
    (call.edit (lengths before) side).put Column.empty Column.revised
      (before side) ++ put rest (call.rewrite before) side

/-- Operations neither lose nor duplicate a record. -/
theorem rewrites_perm (calls : List EditorCall) (before : Side → List Column) (side : Side) :
    (rewriteAll calls before side ++ taken calls before side).Perm
      (before side ++ put calls before side) := by
  induction calls generalizing before with
  | nil => exact .refl _
  | cons call rest ih =>
    have hfirst := ListEdit.apply_perm Column.empty Column.revised
      (call.edit (lengths before) side) (before side)
    have hrest := ih (call.rewrite before)
    rw [rewriteAll, List.foldl_cons, taken, put, ← List.append_assoc, ← List.append_assoc]
    refine (hrest.append_right _).trans ?_
    rw [List.append_assoc]
    refine (List.perm_append_comm.append_left _).trans ?_
    rw [← List.append_assoc]
    exact hfirst.append_right _

/-! ## Indices out of range -/

end EditorCall

namespace Mapping

/-- A model holds a list under the keys of both sides. -/
def HoldsLists (m : Model) : Prop :=
  ∀ side : Side, ∃ entries, m.value? side.key = some (.list entries)

/-- A model that holds records holds two lists. -/
theorem HoldsRecords.lists {m : Model} {records : Side → List Column}
    (h : HoldsRecords m records) : HoldsLists m :=
  fun side => ⟨_, h side⟩

/-- Where there are two lists nothing needs a repair. -/
theorem HoldsLists.repair {m : Model} (h : HoldsLists m) (side : Side) :
    Mapping.repair m side = m :=
  repair_of_list m (h side).choose_spec

/-- Where there are two lists both repairs do nothing. -/
theorem HoldsLists.repairBoth {m : Model} (h : HoldsLists m) : Mapping.repairBoth m = m := by
  rw [Mapping.repairBoth, h.repair, h.repair]

end Mapping

namespace EditorCall

/-- An operation misses its list: an index that it needs is out of range. -/
def Misses (length : Side → Nat) : EditorCall → Prop
  | remove side index => Mapping.OutOfRange (length side) index
  | move side index direction => ∃ word, Direction.ofValue direction = .ok word ∧
      (Mapping.OutOfRange (length side) index ∨
        Mapping.OutOfRange (length side) (Mapping.neighbour index word))
  | connect index _ =>
    Mapping.OutOfRange (length .source) index ∨ Mapping.OutOfRange (length .target) index
  | update side index _ _ => Mapping.OutOfRange (length side) index
  | _ => False

/-- The result of an operation that misses its list. -/
def refusal : EditorCall → Value
  | remove _ _ => .null
  | _ => .bool false

/-- An operation that misses its list leaves the whole model, whatever the lists hold. -/
theorem perform_of_misses_lists {m : Model} (h : Mapping.HoldsLists m) {call : EditorCall}
    (hmisses : call.Misses fun side => (Mapping.items m side).length) :
    call.perform m = { model := m, result := .ok call.refusal } := by
  have hrepair := h.repair
  have hboth := h.repairBoth
  have hslot {side : Side} {index : Int}
      (hout : Mapping.OutOfRange (Mapping.items m side).length index) :
      Mapping.position? (Mapping.items m side) index = none :=
    Mapping.slot?_eq_none.2 hout
  -- Where one of two positions misses its list they are not both found.
  have hpair {side side' : Side} {index index' : Int} {i j : Nat}
      (hout : Mapping.OutOfRange (Mapping.items m side).length index ∨
        Mapping.OutOfRange (Mapping.items m side').length index')
      (hi : Mapping.position? (Mapping.items m side) index = some i)
      (hj : Mapping.position? (Mapping.items m side') index' = some j) : False := by
    rcases hout with hout | hout
    · exact absurd (hi.symm.trans (hslot hout)) (by simp)
    · exact absurd (hj.symm.trans (hslot hout)) (by simp)
  cases call with
  | remove side index =>
    simp only [perform, Mapping.remove, hrepair, hslot hmisses]
    rfl
  | move side index direction =>
    obtain ⟨word, hword, hmisses⟩ := hmisses
    simp only [perform, Mapping.move, hrepair, hword]
    split
    · next i j hi hj => exact (hpair hmisses hi hj).elim
    · rfl
  | connect index on =>
    simp only [perform, Mapping.connect, hboth]
    split
    · next i j hi hj => exact (hpair hmisses hi hj).elim
    · rfl
  | update side index name payload =>
    simp only [perform, Mapping.update, hrepair, hslot hmisses]
    rfl
  | _ => exact hmisses.elim

/-- An operation that misses its list of records leaves the whole model. -/
theorem perform_of_misses {m : Model} {records : Side → List Column}
    (h : Mapping.HoldsRecords m records) {call : EditorCall}
    (hmisses : call.Misses (lengths records)) :
    call.perform m = { model := m, result := .ok call.refusal } := by
  have hlengths : (fun side => (Mapping.items m side).length) = lengths records :=
    funext (Mapping.shown_iff_holdsRecords.2 h).length_items
  exact perform_of_misses_lists h.lists (hlengths ▸ hmisses)

/-- What operations make of the contents depends on the contents alone. -/
theorem contents_recordsAll (calls : List EditorCall) (before : Side → List Column) :
    contents (recordsAll calls before) = rewriteAll calls (contents before) := by
  induction calls generalizing before with
  | nil => rfl
  | cons call rest ih =>
    rw [recordsAll, List.foldl_cons, rewriteAll, List.foldl_cons, ← contents_records]
    exact ih _

/-- The mapping editor is a pair of list editors. From a model that holds records under the keys of
both lists every run of operations reaches one that does so again, and the contents of both lists
are then what the operations made of the contents before: no flag has a say in them. Nothing is lost
or duplicated on the way. In every state reached each operation edits each list as `EditorCall.edit`
has it, and an operation that misses its list reports so and leaves the whole model. -/
theorem edits_lists {m : Model} {records : Side → List Column} (h : Mapping.HoldsRecords m records)
    (calls : List EditorCall) :
    ∃ reached, Mapping.HoldsRecords (performAll m calls) reached ∧
      contents reached = rewriteAll calls (contents records) ∧
      (∀ side, (contents reached side ++ taken calls (contents records) side).Perm
        (contents records side ++ put calls (contents records) side)) ∧
      ∀ call : EditorCall,
        (∃ after, Mapping.HoldsRecords (call.perform (performAll m calls)).model after ∧
          ∀ side, contents after side = (call.edit (lengths reached) side).apply Column.empty
            Column.revised (contents reached side)) ∧
        (call.Misses (lengths reached) → call.perform (performAll m calls) =
          { model := performAll m calls, result := .ok call.refusal }) := by
  have hshown := shown_performAll (Mapping.shown_iff_holdsRecords.2 h) calls
  have hreached := Mapping.shown_iff_holdsRecords.1 hshown
  refine ⟨_, hreached, contents_recordsAll calls records, fun side => ?_, fun call => ⟨?_, ?_⟩⟩
  · rw [contents_recordsAll]
    exact rewrites_perm calls (contents records) side
  · refine ⟨_, Mapping.shown_iff_holdsRecords.1 (shown_perform hshown call), fun side => ?_⟩
    rw [contents_records, rewrite, lengths_contents]
  · exact perform_of_misses hreached

/-- Two records under the key of the source list, one of them connected, and none under that of the
target list. -/
def twoRecords : Side → List Column
  | .source => [{ Column.empty with name := .text "id", connected := true },
      { Column.empty with name := .text "name" }]
  | .target => []

/-- A model that holds the two records. -/
def twoRecordsModel : Model :=
  ⟨[(Keys.sourceColumns, { value := .list ((twoRecords .source).map .column) }),
    (Keys.targetColumns, { value := .list [] })]⟩

/-- Moving the first record down makes it the second one. A removal at index -1 misses the list that
is reached. -/
theorem edits_lists_move :
    Mapping.HoldsRecords twoRecordsModel twoRecords ∧
      ∃ reached, Mapping.HoldsRecords
          (performAll twoRecordsModel [.move .source 0 (.text "down")]) reached ∧
        contents reached .source = [{ Column.empty with name := .text "name" },
          { Column.empty with name := .text "id" }] ∧
        perform (performAll twoRecordsModel [.move .source 0 (.text "down")]) (.remove .source (-1)) =
          { model := performAll twoRecordsModel [.move .source 0 (.text "down")]
            result := .ok .null } := by
  have hrecords : Mapping.HoldsRecords twoRecordsModel twoRecords := by
    intro side
    cases side <;> rfl
  obtain ⟨reached, hreached, hcontents, -, hcall⟩ :=
    edits_lists hrecords [.move .source 0 (.text "down")]
  refine ⟨hrecords, reached, hreached, ?_, (hcall (.remove .source (-1))).2 (.inl (by decide))⟩
  rw [hcontents]
  rfl

end EditorCall

end SyncForm
