import Mathlib.Data.List.TakeWhile
import SyncForm.Catalog.Fixture
import SyncForm.Proofs.Answer

/-!
# Partition entries

A table that is partitioned asks for one entry `name=value` for each of its partition columns. A
lookup writes the entries without their values, the user fills them in, and a rule looks at what
follows the first equals sign of each. So it sees an entry without a value just where the name has
no equals sign of its own (`Rule.lacksValue_entry`): a list of entries is accepted just if each one
has a value or such a name (`TableColumns.unfilled_caught`). `TableColumns.unfilled_passes` is a
table whose list is accepted as the lookup writes it.
-/

namespace SyncForm

/-- The entry of a partition column with its value. -/
def partitionEntry (name value : String) : String :=
  name ++ "=" ++ value

/-- The list of the entries of partition columns with their values. -/
def partitionList (entries : List (String × String)) : Value :=
  .list ((entries.map fun entry => partitionEntry entry.1 entry.2).map .text)

namespace Rule

/-- Nothing follows the first equals sign of an entry. -/
def LacksValue (entry : String) : Prop :=
  afterEquals entry = []

/-- A name without an equals sign is followed by the value of its entry. -/
theorem afterEquals_entry_of_notMem {name : String} (h : '=' ∉ name.toList) (value : String) :
    afterEquals (partitionEntry name value) = value.toList := by
  have hname : ∀ c ∈ name.toList, (c != '=') = true := fun c hc =>
    bne_iff_ne.2 fun heq => h (heq ▸ hc)
  have hsplit : (partitionEntry name value).toList = name.toList ++ '=' :: value.toList := by
    simp [partitionEntry]
  rw [afterEquals, hsplit, List.dropWhile_append_of_pos hname]
  rfl

/-- A name with an equals sign is cut there, so what follows the sign is not empty. -/
theorem afterEquals_entry_of_mem {name : String} (h : '=' ∈ name.toList) (value : String) :
    afterEquals (partitionEntry name value) = afterEquals name ++ '=' :: value.toList := by
  have hsplit : (partitionEntry name value).toList = name.toList ++ '=' :: value.toList := by
    simp [partitionEntry]
  have hrest : name.toList.dropWhile (· != '=') ≠ [] := by
    rw [Ne, List.dropWhile_eq_nil_iff]
    intro hall
    exact absurd (hall '=' h) (by decide)
  obtain ⟨c, rest, hcut⟩ := List.exists_cons_of_ne_nil hrest
  rw [afterEquals, afterEquals, hsplit, List.dropWhile_append, hcut]
  rfl

/-- An entry is seen without a value just if it has none and its name has no equals sign. -/
theorem lacksValue_entry {name value : String} :
    LacksValue (partitionEntry name value) ↔ value = "" ∧ '=' ∉ name.toList := by
  unfold LacksValue
  by_cases h : '=' ∈ name.toList
  · rw [afterEquals_entry_of_mem h]
    exact iff_of_false (by simp) fun hempty => hempty.2 h
  · rw [afterEquals_entry_of_notMem h, String.toList_eq_nil_iff]
    exact (and_iff_left h).symm

/-- A list of texts is accepted just if all of them have values; otherwise there is the message. -/
theorem checkPartitions_texts (entries : List String) :
    (checkPartitions (.list (entries.map .text)) = .ok none ↔
      ∀ entry ∈ entries, ¬ LacksValue entry) ∧
    ((∃ entry ∈ entries, LacksValue entry) →
      checkPartitions (.list (entries.map .text)) = .ok (some partitionMessage)) := by
  have hsequence : checkPartitions (.list (entries.map .text)) =
      if (entries.map Value.text).any (fun entry => (afterEquals entry.plain).isEmpty) then
        .ok (some partitionMessage) else .ok none := by
    cases entries with
    | nil => rfl
    | cons entry rest => rfl
  have hany : (entries.map Value.text).any (fun entry => (afterEquals entry.plain).isEmpty) = true ↔
      ∃ entry ∈ entries, LacksValue entry := by
    simp [List.any_map, LacksValue, Value.plain]
  rw [hsequence]
  constructor
  · split
    · next h =>
      obtain ⟨entry, hmem, hlacks⟩ := hany.1 h
      exact iff_of_false (by simp) fun hall => hall entry hmem hlacks
    · next h =>
      exact iff_of_true rfl fun entry hmem hlacks => h (hany.2 ⟨entry, hmem, hlacks⟩)
  · intro hlacks
    rw [if_pos (hany.2 hlacks)]

end Rule

namespace TableColumns

variable (t : TableColumns)

/-- The partition columns that a table asks values for. -/
def asked : List String :=
  if t.partitioned then t.partitionColumns else []

/-- The entries of a table with the values that they have been given, each by its position. -/
def filled (given : Nat → String) : List String :=
  t.placeholders.mapIdx fun i entry => entry ++ given i

/-- A lookup writes an entry for each of the columns that a table asks values for. -/
theorem placeholders_eq : t.placeholders = t.asked.map (· ++ "=") := by
  unfold placeholders asked
  split
  · rfl
  · rfl

/-- The filled entries are those of the columns that a table asks values for. -/
theorem mem_filled {given : Nat → String} {entry : String} :
    entry ∈ t.filled given ↔
      ∃ i name, t.asked[i]? = some name ∧ partitionEntry name (given i) = entry := by
  rw [filled, placeholders_eq, List.mem_iff_getElem?]
  simp only [List.getElem?_mapIdx, List.getElem?_map, Option.map_map, Option.map_eq_some_iff,
    Function.comp_apply]
  rfl

/-- Entries without values are those that a lookup writes. -/
theorem filled_empty : t.filled (fun _ => "") = t.placeholders := by
  refine List.ext_getElem? fun i => ?_
  simp [filled]

/-- The entries of a table are accepted just once each of them has been given a value, up to those
whose names have an equals sign. -/
theorem checkPartitions_filled (given : Nat → String) :
    Rule.checkPartitions (.list ((t.filled given).map .text)) = .ok none ↔
      ∀ i name, t.asked[i]? = some name → given i ≠ "" ∨ '=' ∈ name.toList := by
  rw [(Rule.checkPartitions_texts _).1]
  constructor
  · intro hall i name hname
    have hentry := hall _ (t.mem_filled.2 ⟨i, name, hname, rfl⟩)
    rwa [Rule.lacksValue_entry, not_and_or, not_not] at hentry
  · intro hall entry hmem
    obtain ⟨i, name, hname, rfl⟩ := t.mem_filled.1 hmem
    rw [Rule.lacksValue_entry, not_and_or, not_not]
    exact hall i name hname

/-- Unfilled entries are caught, up to names with an equals sign. A list of entries is accepted just
if each has a value or such a name, and answered with the message otherwise. The entries of a table
are accepted just once each of them has been given a value or has such a name. The entries that a
lookup writes have no values yet, so they are accepted just if all names have an equals sign. -/
theorem unfilled_caught (entries : List (String × String)) (given : Nat → String) :
    ((Rule.checkPartitions (partitionList entries) = .ok none ↔
        ∀ name value, (name, value) ∈ entries → value ≠ "" ∨ '=' ∈ name.toList) ∧
      ∀ name, (name, "") ∈ entries → '=' ∉ name.toList →
        Rule.checkPartitions (partitionList entries) = .ok (some Rule.partitionMessage)) ∧
    (Rule.checkPartitions (.list ((t.filled given).map .text)) = .ok none ↔
      ∀ i name, t.asked[i]? = some name → given i ≠ "" ∨ '=' ∈ name.toList) ∧
    ∀ (instanceKey tableKey columnsKey partitionsKey : String) (s : Snapshot) (catalog : Catalog)
      (result : LookupResult),
      (Fetch.columns instanceKey tableKey columnsKey partitionsKey).run s catalog =
          .ok (some result) →
        ∃ t : TableColumns, (partitionsKey, .list (t.placeholders.map .text)) ∈ result.values ∧
          (Rule.checkPartitions (.list (t.placeholders.map .text)) = .ok none ↔
            ∀ name ∈ t.asked, '=' ∈ name.toList) := by
  obtain ⟨haccepts, hanswers⟩ :=
    Rule.checkPartitions_texts (entries.map fun e => partitionEntry e.1 e.2)
  refine ⟨⟨?_, ?_⟩, t.checkPartitions_filled given, ?_⟩
  · rw [partitionList, haccepts, List.forall_mem_map, Prod.forall]
    refine forall₂_congr fun name value => imp_congr_right fun _ => ?_
    rw [Rule.lacksValue_entry, not_and_or, not_not]
  · intro name hmem hname
    exact hanswers ⟨_, List.mem_map_of_mem hmem, Rule.lacksValue_entry.2 ⟨rfl, hname⟩⟩
  · intro instanceKey tableKey columnsKey partitionsKey s catalog result hrun
    rw [Fetch.run_columns] at hrun
    split at hrun
    · obtain ⟨t, -, hresult⟩ := Except.of_map_eq_ok hrun
      obtain rfl := Option.some.inj hresult
      refine ⟨t, .tail _ (.head _), ?_⟩
      rw [← t.filled_empty, t.checkPartitions_filled]
      constructor
      · intro hall name hname
        obtain ⟨i, hi⟩ := List.mem_iff_getElem?.1 hname
        exact (hall i name hi).resolve_left (not_not.2 rfl)
      · intro hall i name hname
        exact .inr (hall name (List.mem_of_getElem? hname))
    · cases hrun

/-- The entries of a table are accepted once both have values, one with an equals sign in it, and
not with the one alone. A lookup of the table writes them without values, and that list is not
accepted. -/
theorem unfilled_caught_hourly :
    let t : TableColumns := ⟨[], ["day", "hour"], true⟩
    let catalog := ({ Fixture.empty with columns := [("1", [("events", t)])] } : Fixture).toCatalog
    let s : Snapshot := [("place", .text "1"), ("table", .text "events")]
    let result : LookupResult := {
      values := [("columns", .list []), ("partitions", .list [.text "day=", .text "hour="])] }
    Rule.checkPartitions (.list [.text "day=a=b", .text "hour=7"]) = .ok none ∧
      Rule.checkPartitions (.list [.text "day=a=b", .text "hour="]) ≠ .ok none ∧
      (Fetch.columns "place" "table" "columns" "partitions").run s catalog = .ok (some result) ∧
      ∃ t' : TableColumns, ("partitions", .list (t'.placeholders.map .text)) ∈ result.values ∧
        Rule.checkPartitions (.list (t'.placeholders.map .text)) ≠ .ok none := by
  intro t catalog s result
  have hrun : (Fetch.columns "place" "table" "columns" "partitions").run s catalog =
      .ok (some result) := rfl
  obtain ⟨⟨hboth, -⟩, hone, hlookup⟩ := TableColumns.unfilled_caught t
    [("day", "a=b"), ("hour", "7")] fun i => if i = 0 then "a=b" else ""
  have hgiven : ∀ name value, (name, value) ∈ [("day", "a=b"), ("hour", "7")] →
      value ≠ "" ∨ '=' ∈ name.toList := by
    rintro name value hmem
    simp only [List.mem_cons, Prod.mk.injEq, List.not_mem_nil, or_false] at hmem
    obtain ⟨-, rfl⟩ | ⟨-, rfl⟩ := hmem <;> exact .inl (by decide)
  refine ⟨hboth.2 hgiven, fun haccepted => ?_, hrun, ?_⟩
  · exact absurd (hone.1 haccepted 1 "hour" rfl) (by decide)
  obtain ⟨t', hmem, -⟩ := hlookup _ _ _ _ _ _ _ hrun
  have hwritten : t'.placeholders.map Value.text = [.text "day=", .text "hour="] := by
    simpa [result] using hmem
  refine ⟨t', hmem, ?_⟩
  rw [hwritten]
  exact (by simp : Except.ok (some Rule.partitionMessage) ≠ Except.ok (none : Option String))

/-- The list of a table whose partition column has an equals sign in its name is accepted as a
lookup writes it, without a value. -/
theorem unfilled_passes :
    let payload : Value := .object [
      ("partition_columns", .list [.object [("name", .text "a=b")]]),
      ("is_partitioned", .bool true)]
    ∃ t : TableColumns, ofValue payload = .ok t ∧ t.placeholders = [partitionEntry "a=b" ""] ∧
      Rule.checkPartitions (.list (t.placeholders.map .text)) = .ok none := by
  intro payload
  exact ⟨⟨[], ["a=b"], true⟩, rfl, rfl, rfl⟩

end TableColumns

end SyncForm
