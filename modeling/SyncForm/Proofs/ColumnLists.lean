import Mathlib.Data.List.Forall2
import SyncForm.Proofs.Answer

/-!
# Column lists in job parameters

A column list of job parameters stands for records (`Describes`): nothing and the empty text stand
for none, and in a list every entry is a record or an object that describes one. Reading such a list
succeeds with just these records (`Form.readColumns_eq_ok`), and an export writes records out one by
one (`Form.exportColumns_list`). A record that is written out is read back if it is in normal form
(`Column.ofValue_toValue`), as every record that is read is (`Column.normal_ofValue`).
-/

namespace SyncForm

/-- A list is converted item by item just where every item is. -/
theorem mapM_eq_ok {ε α β : Type} {f : α → Except ε β} {xs : List α} {ys : List β} :
    xs.mapM f = .ok ys ↔ List.Forall₂ (fun x y => f x = .ok y) xs ys := by
  induction xs generalizing ys with
  | nil =>
    rw [List.mapM_nil]
    constructor
    · intro h
      cases h
      exact .nil
    · intro h
      cases h
      rfl
  | cons x xs ih =>
    rw [List.mapM_cons]
    constructor
    · intro h
      cases hx : f x with
      | error fault =>
        rw [hx] at h
        cases h
      | ok y =>
        rw [hx] at h
        cases hxs : xs.mapM f with
        | error fault =>
          rw [hxs] at h
          cases h
        | ok rest =>
          rw [hxs] at h
          cases h
          exact .cons hx (ih.1 hxs)
    · intro h
      cases h with
      | cons hx hxs =>
        rw [hx, ih.2 hxs]
        rfl

/-! ## Records -/

/-- A text field of a record is in normal form if it is given or the empty text. -/
def Value.IsWritten (v : Value) : Prop :=
  v.isTrue = true ∨ v = .text ""

/-- A record in the form in which records are read: no field of it is filled in by reading it. -/
structure Column.Normal (c : Column) : Prop where
  name : c.name.IsWritten
  dataType : c.dataType ≠ .null
  payload : c.payload.IsWritten

/-- Filling in the empty text leaves what is given or empty. -/
theorem Value.orElse_of_isWritten {v : Value} (h : v.IsWritten) : v.orElse (.text "") = v := by
  unfold orElse
  rcases h with hgiven | rfl
  · rw [if_pos hgiven]
  · rfl

/-- What is filled in with the empty text is given or empty. -/
theorem Value.isWritten_orElse (v : Value) : (v.orElse (.text "")).IsWritten := by
  unfold orElse
  split
  · next hgiven => exact .inl hgiven
  · exact .inr rfl

namespace Column

variable {c : Column}

/-- A record in normal form is read back from what it is written as. -/
theorem ofValue_toValue (h : c.Normal) : ofValue c.toValue = .ok c := by
  obtain ⟨ordinal, name, dataType, connected, payload⟩ := c
  have hordinal : ((Value.int ordinal).orElse (.int 0)).toInteger = .ok ordinal := by
    unfold Value.orElse
    split
    · rfl
    · next hzero =>
      have : ordinal = 0 := by simpa [Value.isTrue] using hzero
      rw [this]
      rfl
  have hread : ofValue (toValue ⟨ordinal, name, dataType, connected, payload⟩) =
      (((Value.int ordinal).orElse (.int 0)).toInteger).map fun i =>
        { ordinal := i
          name := name.orElse (.text "")
          dataType
          connected
          payload := payload.orElse (.text "") } := by
    cases dataType with
    | null => exact absurd rfl h.dataType
    | _ => rfl
  rw [hread, hordinal, Value.orElse_of_isWritten h.name, Value.orElse_of_isWritten h.payload]
  rfl

/-- Records that are written out alike are the same. -/
theorem toValue_injective : Function.Injective toValue := by
  rintro ⟨ordinal, name, dataType, connected, payload⟩ ⟨_, _, _, _, _⟩ h
  cases h
  rfl

/-- Every record that is read is in normal form. -/
theorem normal_ofValue {v : Value} (h : ofValue v = .ok c) : c.Normal := by
  cases v with
  | object members =>
    have hread := (ofMembers_eq_map members).symm.trans h
    obtain ⟨ordinal, -, hc⟩ := Except.of_map_eq_ok hread
    subst hc
    refine ⟨Value.isWritten_orElse _, ?_, Value.isWritten_orElse _⟩
    dsimp only
    split
    · exact Value.noConfusion
    · next hnull => exact fun heq => hnull heq
  | _ => cases h

/-- Just the records in normal form are read back from what they are written as. -/
theorem ofValue_toValue_iff : ofValue c.toValue = .ok c ↔ c.Normal :=
  ⟨normal_ofValue, ofValue_toValue⟩

/-- Any text is given or empty. -/
theorem isWritten_text (s : String) : (Value.text s).IsWritten := by
  by_cases hs : s = ""
  · exact .inr (congrArg Value.text hs)
  · exact .inl (by simpa [Value.isTrue] using hs)

/-- Writing settles a record. Whatever a record was read from, it is read back from what it is
written as and written as the same again; among all records just those in normal form are read back;
and these include every record whose fields are texts. -/
theorem settled_written :
    (∀ v c, ofValue v = .ok c →
      ofValue c.toValue = .ok c ∧ (ofValue c.toValue).map toValue = .ok c.toValue) ∧
    (∀ c, ofValue c.toValue = .ok c ↔ c.Normal) ∧
    ∀ (ordinal : Int) (name dataType : String) (connected : Bool) (payload : String),
      let c : Column := ⟨ordinal, .text name, .text dataType, connected, .text payload⟩
      ofValue c.toValue = .ok c := by
  refine ⟨fun v c hread => ?_, fun c => ofValue_toValue_iff, ?_⟩
  · have hagain := ofValue_toValue (normal_ofValue hread)
    refine ⟨hagain, ?_⟩
    rw [hagain]
    rfl
  · intro ordinal name dataType connected payload
    exact ofValue_toValue ⟨isWritten_text name, Value.noConfusion, isWritten_text payload⟩

/-- A record of mixed spellings, with a position that is a text, a name that is `null`, a type that
is no text and a payload that is `nan`, is written in its one form and read back from it. -/
theorem settled_written_mixed :
    let mixed : Value := .object [
      ("index", .text " 1_2 "), ("ordinal_hint", .int 3), ("columnName", .null),
      ("name", .text "id"), ("data_type", .list [.null]), ("connected", .text "no"),
      ("raw_json", .float .nan), ("comment", .text "kept nowhere")]
    let c : Column := ⟨12, .text "", .list [.null], true, .float .nan⟩
    ofValue mixed = .ok c ∧ ofValue c.toValue = .ok c := by
  intro mixed c
  have hread : ofValue mixed = .ok c := by rfl
  exact ⟨hread, (settled_written.1 mixed c hread).1⟩

end Column

/-! ## Reading a list -/

/-- An entry of a column list stands for a record: it is the record, or it describes it. -/
def Value.Reads (entry : Value) (c : Column) : Prop :=
  entry = .column c ∨ Column.ofValue entry = .ok c

/-- The records that a column list of job parameters stands for. -/
inductive Describes : Value → List Column → Prop
  | null : Describes .null []
  | blank : Describes (.text "") []
  | list {entries : List Value} {cs : List Column} :
      List.Forall₂ Value.Reads entries cs → Describes (.list entries) cs

/-- An entry stands for one record at most. -/
theorem Value.Reads.unique : Relator.RightUnique Value.Reads := by
  intro entry c c' h h'
  rcases h with rfl | h
  · rcases h' with heq | h'
    · exact Value.column.inj heq
    · cases h'
  · rcases h' with rfl | h'
    · cases h
    · exact Except.ok.inj (h.symm.trans h')

/-- A column list stands for one list of records at most. -/
theorem Describes.unique {v : Value} {cs cs' : List Column} (h : Describes v cs)
    (h' : Describes v cs') : cs = cs' := by
  cases h with
  | null => cases h'; rfl
  | blank => cases h'; rfl
  | list hall =>
    cases h' with
    | list hall' => exact Value.Reads.unique.forall₂ hall hall'

/-- Records that are read from descriptions are in normal form. -/
theorem Describes.normal {v : Value} {cs : List Column} (h : Describes v cs)
    (hv : ∀ entries, v = .list entries → ∀ c, .column c ∉ entries) : ∀ c ∈ cs, c.Normal := by
  cases h with
  | null => exact fun c hc => absurd hc List.not_mem_nil
  | blank => exact fun c hc => absurd hc List.not_mem_nil
  | list hall =>
    have hentries := hv _ rfl
    clear hv
    induction hall with
    | nil => exact fun c hc => absurd hc List.not_mem_nil
    | cons hread _ ih =>
      intro c hc
      rcases List.mem_cons.1 hc with rfl | hc
      · rcases hread with rfl | hread
        · exact absurd (.head _) (hentries c)
        · exact Column.normal_ofValue hread
      · exact ih (fun c hmem => hentries c (.tail _ hmem)) c hc

/-- Records in normal form that are written out describe themselves. -/
theorem describes_toValue {cs : List Column} (h : ∀ c ∈ cs, c.Normal) :
    Describes (.list (cs.map Column.toValue)) cs := by
  refine .list (List.forall₂_map_left_iff.2 ?_)
  exact List.forall₂_same.2 fun c hc => .inr (Column.ofValue_toValue (h c hc))

namespace Form

variable {key : String}

/-- An entry that stands for a record is read as that record. -/
theorem readEntries_of_reads {entry : Value} {c : Column} (h : entry.Reads c) (i : Nat)
    (rest : List Value) :
    readEntries key i (entry :: rest) =
      (readEntries key (i + 1) rest).map fun read => (.column c :: read.1, read.2) := by
  rcases h with rfl | h
  · rw [readEntries]
    rfl
  · cases entry with
    | object members =>
      rw [readEntries, h]
      · rfl
      · exact fun _ => Value.noConfusion
    | _ => cases h

/-- An entry that stands for no record is reported. -/
theorem readEntries_of_not_reads {entry : Value} (h : ∀ c, ¬ entry.Reads c) (i : Nat)
    (rest records : List Value) : readEntries key i (entry :: rest) ≠ .ok (records, []) := by
  have hcolumn : ∀ c, entry ≠ .column c := fun c heq => h c (.inl heq)
  rw [readEntries]
  · cases hread : Column.ofValue entry with
    | ok c => exact absurd (.inr hread) (h c)
    | error fault =>
      intro heq
      dsimp only at heq
      split at heq
      · cases hrest : readEntries key (i + 1) rest with
        | error fault =>
          rw [hrest] at heq
          cases heq
        | ok read =>
          rw [hrest] at heq
          cases heq
      · cases heq
  · exact hcolumn

/-- Entries are read without a report just where all stand for records. -/
theorem readEntries_eq_ok {entries records : List Value} (i : Nat) :
    readEntries key i entries = .ok (records, []) ↔
      ∃ cs, records = cs.map .column ∧ List.Forall₂ Value.Reads entries cs := by
  induction entries generalizing records i with
  | nil =>
    constructor
    · intro h
      cases h
      exact ⟨[], rfl, .nil⟩
    · rintro ⟨cs, rfl, hall⟩
      cases hall
      rfl
  | cons entry rest ih =>
    by_cases hreads : ∃ c, entry.Reads c
    · obtain ⟨c, hc⟩ := hreads
      rw [readEntries_of_reads hc]
      constructor
      · intro h
        cases hrest : readEntries key (i + 1) rest with
        | error fault =>
          rw [hrest] at h
          cases h
        | ok read =>
          obtain ⟨others, issues⟩ := read
          rw [hrest] at h
          cases h
          obtain ⟨cs, rfl, hall⟩ := (ih (i + 1)).1 hrest
          exact ⟨c :: cs, rfl, .cons hc hall⟩
      · rintro ⟨cs, rfl, hall⟩
        cases hall with
        | cons hc' hall =>
          obtain rfl := Value.Reads.unique hc hc'
          rw [(ih (i + 1)).2 ⟨_, rfl, hall⟩]
          rfl
    · refine iff_of_false (readEntries_of_not_reads (not_exists.1 hreads) i rest records) ?_
      rintro ⟨cs, -, hall⟩
      cases hall with
      | cons hc _ => exact hreads ⟨_, hc⟩

/-- A column list is read just where it stands for records, and as these records. -/
theorem readColumns_eq_ok {v : Value} {records : List Value} :
    readColumns key v = .ok records ↔ ∃ cs, records = cs.map .column ∧ Describes v cs := by
  constructor
  · intro h
    unfold readColumns at h
    split at h
    · cases h
      exact ⟨[], rfl, .null⟩
    · cases h
      exact ⟨[], rfl, .blank⟩
    · next entries =>
      cases hread : readEntries key 0 entries with
      | error fault =>
        rw [hread] at h
        cases h
      | ok read =>
        obtain ⟨others, issues⟩ := read
        rw [hread] at h
        cases issues with
        | nil =>
          cases h
          obtain ⟨cs, rfl, hall⟩ := (readEntries_eq_ok 0).1 hread
          exact ⟨cs, rfl, .list hall⟩
        | cons issue issues => cases h
    · cases h
  · rintro ⟨cs, rfl, hdescribes⟩
    cases hdescribes with
    | null => rfl
    | blank => rfl
    | list hall =>
      unfold readColumns
      dsimp only
      rw [(readEntries_eq_ok 0).2 ⟨cs, rfl, hall⟩]
      rfl

/-! ## Writing a list -/

/-- A list of records is written out record by record. -/
theorem exportColumns_list (cs : List Column) :
    exportColumns (.list (cs.map .column)) = .ok (cs.map Column.toValue) := by
  have hrecords : (cs.map Value.column).mapM (fun entry =>
      (entry.asColumn "to_dict").map Column.toValue) = .ok (cs.map Column.toValue) := by
    rw [mapM_eq_ok, List.forall₂_map_left_iff, List.forall₂_map_right_iff]
    exact List.forall₂_same.2 fun c _ => rfl
  cases cs with
  | nil => rfl
  | cons c rest => exact hrecords

/-- Whatever is written out as columns is a list of records written out. -/
theorem exists_of_exportColumns {v : Value} {items : List Value} (h : exportColumns v = .ok items) :
    ∃ cs : List Column, items = cs.map Column.toValue := by
  unfold exportColumns at h
  cases hentries : (v.orElse (.list [])).toSequence with
  | error fault =>
    rw [hentries] at h
    cases h
  | ok entries =>
    rw [hentries] at h
    have hitems := mapM_eq_ok.1 h
    clear h hentries
    induction hitems with
    | nil => exact ⟨[], rfl⟩
    | cons hitem _ ih =>
      obtain ⟨cs, rfl⟩ := ih
      obtain ⟨c, -, rfl⟩ := Except.of_map_eq_ok hitem
      exact ⟨c :: cs, rfl⟩

end Form

end SyncForm
