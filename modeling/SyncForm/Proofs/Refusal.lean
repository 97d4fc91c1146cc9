import SyncForm.Proofs.Import
import SyncForm.Proofs.Nesting

/-!
# Refused parameters

Job parameters make a form just where what they give for each column list is a list of columns
(`Value.IsColumnList`): nothing, the empty text, or a list of entries that are all columns. Any other
value is refused in one of the ways of `Form.Refused`, the source list before the target list.
`Form.built_or_refused` says so, and what a list is given: flattening the parameters leaves out the
objects. `Form.refusal_missed` shows the two kinds of parameters that are not reported as their
fellows are: a position that is infinite, and an object in place of a list.
-/

namespace SyncForm

/-! ## Columns in job parameters -/

/-- The position that an object gives, under the first of two names or else under the second. -/
def Column.position? (members : Assoc Value) : Option Value :=
  (Assoc.valueOf? members "index").or (Assoc.valueOf? members "ordinal_hint")

/-- The position that an object gives as an integer, zero where none is given or true. -/
def Column.readPosition (members : Assoc Value) : Except Fault Int :=
  ((Column.position? members).filter Value.isTrue).elim (.ok 0) Value.toInteger

/-- Reading an object reads its position. -/
theorem Column.ofMembers_eq (members : Assoc Value) : ∃ rest : Int → Column,
    ofMembers members = (readPosition members).map rest := by
  let pick := ColumnOf.pick (Assoc.valueOf? members)
  have hpick : pick "index" "ordinal_hint" (.int 0) = (position? members).getD (.int 0) := by
    unfold pick ColumnOf.pick position?
    cases Assoc.valueOf? members "index" <;> rfl
  have hread : ((pick "index" "ordinal_hint" (.int 0)).orElse (.int 0)).toInteger =
      readPosition members := by
    unfold readPosition
    rw [hpick]
    cases position? members with
    | none => rfl
    | some v =>
      rw [Option.getD_some, Option.filter_some, Value.orElse]
      split <;> rfl
  rw [ofMembers_eq_map, hread]
  exact ⟨_, rfl⟩

namespace Value

/-- An entry is a column: it is a record, or an object whose position, if one is given and true, is
read as an integer. -/
inductive IsColumn : Value → Prop
  | record (c : Column) : IsColumn (.column c)
  | described {members : Assoc Value} : (∀ v, Column.position? members = some v → v.isTrue = true →
    ∃ i, v.toInteger = .ok i) → IsColumn (.object members)

/-- A value is a list of columns, or stands for the empty one. -/
inductive IsColumnList : Value → Prop
  | null : IsColumnList .null
  | blank : IsColumnList (.text "")
  | list {entries : List Value} : (∀ entry ∈ entries, entry.IsColumn) →
    IsColumnList (.list entries)

/-- What is wrong with an entry, if it is no column. -/
def flaw? : Value → Option Fault
  | column _ => none
  | object members =>
    match Column.readPosition members with
    | .ok _ => none
    | .error fault => some fault
  | v => some (.notColumn v.kind)

variable {entry : Value} {fault : Fault}

/-- A column has no flaw, and what has none is a column. -/
theorem flaw?_eq_none : entry.flaw? = none ↔ entry.IsColumn := by
  cases entry with
  | column c => exact iff_of_true rfl (.record c)
  | object members =>
    unfold flaw? Column.readPosition
    dsimp only
    constructor
    · intro h
      refine .described fun v hv hgiven => ?_
      rw [hv, Option.filter_some, if_pos hgiven, Option.elim_some] at h
      cases hread : v.toInteger with
      | ok i => exact ⟨i, rfl⟩
      | error fault =>
        rw [hread] at h
        cases h
    · rintro (_ | hread)
      cases hposition : (Column.position? members).filter isTrue with
      | none => rfl
      | some v =>
        obtain ⟨hv, hgiven⟩ := Option.filter_eq_some_iff.1 hposition
        obtain ⟨i, hi⟩ := hread v hv hgiven
        rw [Option.elim_some, hi]
  | _ => exact iff_of_false nofun nofun

/-- An entry without a flaw stands for a record; one with a flaw is no record and is not read as
one. -/
theorem reads_or_flaw (entry : Value) : (entry.flaw? = none ∧ ∃ c, entry.Reads c) ∨
    ∃ fault, entry.flaw? = some fault ∧ Column.ofValue entry = .error fault ∧
      ∀ c, entry ≠ .column c := by
  cases entry with
  | column c => exact .inl ⟨rfl, c, .inl rfl⟩
  | object members =>
    obtain ⟨rest, hrest⟩ := Column.ofMembers_eq members
    have hread : Column.ofValue (.object members) = (Column.readPosition members).map rest := hrest
    rw [hread]
    unfold flaw?
    dsimp only
    cases hposition : Column.readPosition members with
    | ok i => exact .inl ⟨rfl, rest i, .inr (by rw [hread, hposition]; rfl)⟩
    | error fault => exact .inr ⟨fault, rfl, rfl, fun c => Value.noConfusion⟩
  | _ => exact .inr ⟨_, rfl, rfl, fun c => Value.noConfusion⟩

/-- An entry that stands for a record has no flaw. -/
theorem Reads.flaw? {c : Column} (h : entry.Reads c) : entry.flaw? = none := by
  rcases reads_or_flaw entry with ⟨hnone, -⟩ | ⟨fault, -, hread, hcolumn⟩
  · exact hnone
  · rcases h with rfl | h
    · exact absurd rfl (hcolumn c)
    · cases h.symm.trans hread

/-- A value that is not read as an integer is none, unless it is infinite. -/
theorem isEntryFault_of_toInteger {v : Value} (h : v.toInteger = .error fault)
    (hfinite : fault ≠ .infinityHasNoInteger) : Form.isEntryFault fault = true := by
  unfold toInteger at h
  split at h
  · cases h
  · cases h
  · split at h
    · cases h
      rfl
    · cases h
      exact absurd rfl hfinite
    · cases h
  · split at h <;> cases h <;> rfl
  · cases h
    rfl

/-- Every flaw but an infinite position says that an entry is no column. -/
theorem isEntryFault_of_flaw? (h : entry.flaw? = some fault)
    (hfinite : fault ≠ .infinityHasNoInteger) : Form.isEntryFault fault = true := by
  cases entry with
  | column c => cases h
  | object members =>
    unfold flaw? Column.readPosition at h
    dsimp only at h
    cases hposition : (Column.position? members).filter isTrue with
    | none =>
      rw [hposition] at h
      cases h
    | some v =>
      rw [hposition, Option.elim_some] at h
      cases hv : v.toInteger with
      | ok i =>
        rw [hv] at h
        cases h
      | error other =>
        rw [hv] at h
        cases h
        exact isEntryFault_of_toInteger hv hfinite
  | _ =>
    cases h
    rfl

/-- Lists of columns are what stands for records. -/
theorem isColumnList_iff {v : Value} : v.IsColumnList ↔ ∃ cs, Describes v cs := by
  constructor
  · rintro (_ | _ | hall)
    · exact ⟨[], .null⟩
    · exact ⟨[], .blank⟩
    · next entries =>
      induction entries with
      | nil => exact ⟨[], .list .nil⟩
      | cons entry rest ih =>
        have hflaw := flaw?_eq_none.2 (hall entry (.head _))
        obtain ⟨cs, hcs⟩ := ih fun other hother => hall other (.tail _ hother)
        rcases reads_or_flaw entry with ⟨-, c, hc⟩ | ⟨fault, hfault, -⟩
        · cases hcs with
          | list hrest => exact ⟨c :: cs, .list (.cons hc hrest)⟩
        · cases hflaw.symm.trans hfault
  · rintro ⟨cs, _ | _ | hall⟩
    · exact .null
    · exact .blank
    · refine .list ?_
      induction hall with
      | nil => exact fun _ hmem => absurd hmem List.not_mem_nil
      | cons hread _ ih => exact List.forall_mem_cons.2 ⟨flaw?_eq_none.1 hread.flaw?, ih⟩

end Value

namespace Form

/-! ## Reading a list -/

variable {key : String} {fault : Fault}

/-- The report on one entry. -/
def issueAt (key : String) (i : Nat) (fault : Fault) : String :=
  key ++ "[" ++ toString i ++ "]: " ++ fault.text

/-- The reports on some entries, one for each that has a flaw, in order; the first entry stands at
a position. -/
def issuesFrom (key : String) (i : Nat) (entries : List Value) : List String :=
  (entries.zipIdx i).filterMap fun (entry, position) => entry.flaw?.map (issueAt key position)

/-- A value that is given for a column list and is no list of columns is refused: a value of another
kind with one report, a list with a report on each entry that is no column, in order. An infinite
position is a fault of its own, and stands for all reports on its list. -/
inductive Refused (key : String) : Value → Fault → Prop
  | unlisted {v : Value} : ¬ v.IsColumnList → (∀ entries, v ≠ .list entries) →
    Refused key v (unreadable key [key ++ ": expected a list of columns"])
  | entries {entries : List Value} : ¬ (Value.list entries).IsColumnList →
    (∀ entry ∈ entries, entry.flaw? ≠ some .infinityHasNoInteger) →
    Refused key (.list entries) (unreadable key (issuesFrom key 0 entries))
  | endless {entries : List Value} {entry : Value} : entry ∈ entries →
    entry.flaw? = some .infinityHasNoInteger → Refused key (.list entries) .infinityHasNoInteger

/-- An entry with a flaw is reported, or its fault ends the reading. -/
theorem readEntries_of_flaw? {entry : Value} (h : entry.flaw? = some fault) (i : Nat)
    (rest : List Value) :
    readEntries key i (entry :: rest) =
      if isEntryFault fault then
        (readEntries key (i + 1) rest).map fun read => (read.1, issueAt key i fault :: read.2)
      else .error fault := by
  rcases Value.reads_or_flaw entry with ⟨hnone, -⟩ | ⟨other, hother, hread, hcolumn⟩
  · cases h.symm.trans hnone
  · cases h.symm.trans hother
    rw [readEntries, hread]
    · rfl
    · exact hcolumn

/-- Where no position is infinite, reading some entries reports on each one that has a flaw. -/
theorem readEntries_issues (key : String) {entries : List Value}
    (h : ∀ entry ∈ entries, entry.flaw? ≠ some .infinityHasNoInteger) (i : Nat) :
    ∃ records, readEntries key i entries = .ok (records, issuesFrom key i entries) := by
  induction entries generalizing i with
  | nil => exact ⟨[], rfl⟩
  | cons entry rest ih =>
    obtain ⟨records, hrest⟩ := ih (fun other hother => h other (.tail _ hother)) (i + 1)
    rcases Value.reads_or_flaw entry with ⟨hnone, c, hc⟩ | ⟨fault, hflaw, -⟩
    · have hissues : issuesFrom key i (entry :: rest) = issuesFrom key (i + 1) rest := by
        simp only [issuesFrom, List.zipIdx_cons, List.filterMap_cons, hnone, Option.map_none]
      rw [readEntries_of_reads hc, hrest, hissues]
      exact ⟨_, rfl⟩
    · have hissues : issuesFrom key i (entry :: rest) =
          issueAt key i fault :: issuesFrom key (i + 1) rest := by
        simp only [issuesFrom, List.zipIdx_cons, List.filterMap_cons, hflaw, Option.map_some]
      have hfinite : fault ≠ .infinityHasNoInteger := by
        rintro rfl
        exact h entry (.head _) hflaw
      rw [readEntries_of_flaw? hflaw, if_pos (Value.isEntryFault_of_flaw? hflaw hfinite), hrest,
        hissues]
      exact ⟨_, rfl⟩

/-- An infinite position ends the reading of some entries. -/
theorem readEntries_endless {entries : List Value} {entry : Value} (hmem : entry ∈ entries)
    (h : entry.flaw? = some .infinityHasNoInteger) (i : Nat) :
    readEntries key i entries = .error .infinityHasNoInteger := by
  induction hmem generalizing i with
  | head rest =>
    rw [readEntries_of_flaw? h]
    rfl
  | tail first _ ih =>
    rcases Value.reads_or_flaw first with ⟨-, c, hc⟩ | ⟨fault, hflaw, -⟩
    · rw [readEntries_of_reads hc, ih]
      rfl
    · -- Whether the entry before is reported or ends the reading itself, the fault is the same.
      rw [readEntries_of_flaw? hflaw, ih]
      split
      · rfl
      · next hother =>
        refine congrArg Except.error (Classical.byContradiction fun hne => hother ?_)
        exact Value.isEntryFault_of_flaw? hflaw hne

/-- What is not read as a column list is no list of columns, and is refused. -/
theorem refused_of_readColumns {v : Value} (h : readColumns key v = .error fault) :
    Refused key v fault := by
  have hnot : ¬ v.IsColumnList := fun hlist => by
    obtain ⟨cs, hcs⟩ := Value.isColumnList_iff.1 hlist
    cases h.symm.trans (readColumns_eq_ok.2 ⟨cs, rfl, hcs⟩)
  unfold readColumns at h
  split at h
  · cases h
  · cases h
  · next entries =>
    by_cases hendless : ∃ entry ∈ entries, entry.flaw? = some .infinityHasNoInteger
    · obtain ⟨entry, hmem, hflaw⟩ := hendless
      rw [readEntries_endless hmem hflaw] at h
      cases h
      exact .endless hmem hflaw
    · have hfinite : ∀ entry ∈ entries, entry.flaw? ≠ some .infinityHasNoInteger :=
        fun entry hmem hflaw => hendless ⟨entry, hmem, hflaw⟩
      obtain ⟨records, hread⟩ := readEntries_issues key hfinite 0
      rw [hread] at h
      by_cases hnone : (issuesFrom key 0 entries).isEmpty = true
      · simp only [bind, Except.bind, if_pos hnone, pure, Except.pure] at h
        cases h
      · simp only [bind, Except.bind, if_neg hnone] at h
        cases h
        exact .entries hnot hfinite
  · next hlist =>
    cases h
    exact .unlisted hnot hlist

/-- A column list of a model that cannot be read is refused. -/
theorem refused_of_readList {m : Model} (h : readList m key = .error fault) :
    ∃ v, m.value? key = some v ∧ Refused key v fault := by
  unfold readList at h
  cases hvalue : m.value? key with
  | none =>
    rw [hvalue] at h
    cases h
  | some v =>
    rw [hvalue] at h
    refine ⟨v, rfl, refused_of_readColumns ?_⟩
    cases hread : readColumns key v with
    | ok records =>
      simp only [hread] at h
      cases h
    | error other =>
      simp only [hread] at h
      cases h
      rfl

end Form

/-! ## What flattening leaves -/

/-- In a list that has no key twice, a key holds what stands beside it. -/
theorem Assoc.valueOf?_of_mem {α : Type} {a : Assoc α} {key : String} {value : α}
    (hkeys : (keys a).Nodup) (h : (key, value) ∈ a) : valueOf? a key = some value := by
  obtain ⟨w, hw, hmem⟩ := exists_valueOf? h
  have hsame := List.inj_on_of_nodup_map hkeys hmem h rfl
  exact hw.trans (congrArg (fun kv => some kv.2) hsame)

/-- A path below another one has a dot. -/
theorem dot_mem_joinPath {above : String} (h : above.isEmpty = false) (name : String) :
    '.' ∈ (joinPath above name).toList := by
  rw [joinPath, if_neg (Bool.eq_false_iff.1 h), String.toList_append, String.toList_append]
  exact List.mem_append_left _ (List.mem_append_right _ (.head _))

mutual

/-- Every path below one with a dot has a dot. -/
theorem Value.dot_mem_of_leaves {leaf : String × Value} : ∀ (v : Value) (path : String),
    '.' ∈ path.toList → leaf ∈ v.leaves path → '.' ∈ leaf.1.toList
  | .object members, path, hdot, h => by
    refine dot_mem_of_leavesOfMembers members path (Bool.eq_false_iff.2 fun hempty => ?_) h
    rw [String.isEmpty_iff.1 hempty] at hdot
    exact absurd hdot List.not_mem_nil
  | .null, _, hdot, h | .bool _, _, hdot, h | .int _, _, hdot, h | .float _, _, hdot, h
  | .text _, _, hdot, h | .list _, _, hdot, h | .column _, _, hdot, h => by
    rw [List.mem_singleton.1 h]
    exact hdot

/-- Every path below the members of an object has a dot, unless the object is at the empty path. -/
theorem dot_mem_of_leavesOfMembers {leaf : String × Value} :
    ∀ (members : List (String × Value)) (path : String), path.isEmpty = false →
      leaf ∈ leavesOfMembers path members → '.' ∈ leaf.1.toList
  | [], _, _, h => absurd h List.not_mem_nil
  | (name, v) :: rest, path, hpath, h => by
    rcases List.mem_append.1 h with hhere | hrest
    · exact Value.dot_mem_of_leaves v (joinPath path name) (dot_mem_joinPath hpath name) hhere
    · exact dot_mem_of_leavesOfMembers rest path hpath hrest

end

section

variable {params : Assoc Value} {key : String} {v : Value}

/-- The model of parameters holds just the last leaf of a path. -/
theorem Model.value?_ofMembers_iff :
    (ofMembers params).value? key = some v ↔ LastLeaf params key v := by
  refine ⟨fun h => ?_, value?_ofMembers⟩
  obtain ⟨before, after, last, hsplit, hlast⟩ := Assoc.exists_last (mem_leaves_of_value? h)
  cases h.symm.trans (value?_ofMembers ⟨before, after, hsplit, hlast⟩)
  exact ⟨before, after, hsplit, hlast⟩

/-- Where no name is empty, a leaf whose path has no dot is a member that is no object. -/
theorem mem_of_mem_leaves (hroot : "" ∉ Assoc.keys params) (hkey : '.' ∉ key.toList)
    (h : (key, v) ∈ leavesOfMembers "" params) : (key, v) ∈ params := by
  obtain ⟨name, w, hmem, hleaf⟩ := mem_leavesOfMembers.1 h
  have hname : name.isEmpty = false := Bool.eq_false_iff.2 fun hempty =>
    hroot (List.mem_map.2 ⟨(name, w), hmem, String.isEmpty_iff.1 hempty⟩)
  cases hobject : w.isObject with
  | false =>
    rw [Value.leaves_of_not_object hobject] at hleaf
    cases List.mem_singleton.1 hleaf
    exact hmem
  | true =>
    cases w with
    | object members => exact absurd (dot_mem_of_leavesOfMembers members name hname hleaf) hkey
    | _ => cases hobject

/-- Where every name is given once and none is empty, the model of parameters holds under a path
without a dot what they give there, unless that is an object. -/
theorem Model.value?_ofMembers_plain (hnames : (Assoc.keys params).Nodup)
    (hroot : "" ∉ Assoc.keys params) (hkey : '.' ∉ key.toList) :
    (ofMembers params).value? key = (Assoc.valueOf? params key).filter (!·.isObject) := by
  ext v
  rw [value?_ofMembers_iff, Option.filter_eq_some_iff]
  constructor
  · rintro ⟨before, after, hsplit, -⟩
    have hleaf : (key, v) ∈ leavesOfMembers "" params := by
      rw [hsplit]
      exact List.mem_append_right _ (.head _)
    have hplain : v.isObject = false := not_object_of_leavesOfMembers params "" hleaf
    refine ⟨Assoc.valueOf?_of_mem hnames (mem_of_mem_leaves hroot hkey hleaf), ?_⟩
    rw [hplain]
    rfl
  · rintro ⟨hvalue, hplain⟩
    have hplain : v.isObject = false := by simpa using hplain
    have hleaf : (key, v) ∈ leavesOfMembers "" params := by
      refine mem_leavesOfMembers.2 ⟨key, v, Assoc.mem_of_valueOf? hvalue, ?_⟩
      rw [Value.leaves_of_not_object hplain]
      exact List.mem_singleton.2 rfl
    refine lastLeaf_of_not_overridden hleaf (not_overridden_of_unique fun w hw => ?_)
    have hother := Assoc.valueOf?_of_mem hnames (mem_of_mem_leaves hroot hkey hw)
    exact Option.some.inj (hother.symm.trans hvalue)

end

namespace Form

/-! ## The form of job parameters -/

variable {disabled : List String} {params : Assoc Value} {f : Form} {fault : Fault}

/-- A list that was read off a model is a list of columns. -/
theorem isColumnList_of_readList {m m' : Model} {key : String} (h : readList m key = .ok m')
    {v : Value} (hv : m.value? key = some v) : v.IsColumnList := by
  obtain ⟨-, cs, -, hdescribes⟩ := readList_spec h
  rw [hv] at hdescribes
  exact Value.isColumnList_iff.2 ⟨cs, hdescribes⟩

/-- A form of job parameters holds one record for each entry of a list that they give, in order. -/
theorem records_ofValues (h : ofValues (.object params) (Template.taskForm disabled) = .ok f)
    (side : Side) : ∃ cs : List Column,
      f.resolver.model.value? side.key = some (.list (cs.map .column)) ∧
        Describes (((Model.ofMembers params).value? side.key).getD (.list [])) cs := by
  obtain ⟨given, m, cs, hgiven, rfl, hseeded⟩ := ofValues_spec h
  cases hgiven.symm.trans (Model.ofValue_object params)
  exact ⟨cs side, Plan.value?_begun_of_given _ (hseeded.columns side), hseeded.described side⟩

/-- A form of job parameters can be built just where what they give for the lists are lists of
columns. -/
theorem exists_ofValues_iff : (∃ f, ofValues (.object params) (Template.taskForm disabled) = .ok f) ↔
    ∀ (side : Side) v, (Model.ofMembers params).value? side.key = some v → v.IsColumnList := by
  constructor
  · rintro ⟨f, hf⟩ side v hv
    obtain ⟨cs, -, hdescribes⟩ := records_ofValues hf side
    rw [hv] at hdescribes
    exact Value.isColumnList_iff.2 ⟨cs, hdescribes⟩
  · intro h
    exact exists_ofValues disabled (Model.ofValue_object params) fun side v hv =>
      Value.isColumnList_iff.1 (h side v hv)

/-- Job parameters that make no form are refused for the source list, or for the target list if the
source list is one of columns. -/
theorem refused_of_ofValues
    (h : ofValues (.object params) (Template.taskForm disabled) = .error fault) :
    let given := fun side : Side => (Model.ofMembers params).value? side.key
    (∃ v, given .source = some v ∧ Refused Side.source.key v fault) ∨
      (∀ v, given .source = some v → v.IsColumnList) ∧
        ∃ v, given .target = some v ∧ Refused Side.target.key v fault := by
  intro given
  rw [ofValues_taskForm, Model.ofValue_object] at h
  cases hsource : readList (Model.ofMembers params) Keys.sourceColumns with
  | error other =>
    simp only [hsource, bind, Except.bind] at h
    cases h
    exact .inl (refused_of_readList hsource)
  | ok m =>
    -- Reading the source list leaves the target list as it was given.
    have hkept : m.value? Keys.targetColumns = given .target :=
      (readList_spec hsource).1 _ (by decide)
    cases htarget : readList m Keys.targetColumns with
    | error other =>
      simp only [hsource, htarget, bind, Except.bind] at h
      cases h
      obtain ⟨v, hv, hrefused⟩ := refused_of_readList htarget
      exact .inr ⟨fun _ => isColumnList_of_readList hsource, v, hkept.symm.trans hv, hrefused⟩
    | ok m' =>
      simp only [hsource, htarget, bind, Except.bind] at h
      cases h

/-- Job parameters make a form of the task table just where each column list that they give is a
list of columns; it then holds one record for each entry, in order. All other parameters are refused
for the first list that is none, the source list before the target list. What the parameters give a
list is the last leaf at its path: where every name is given once and none is empty, what stands
under the name of the list, unless that is an object. -/
theorem built_or_refused (params : Assoc Value) (disabled : List String) :
    let built := ofValues (.object params) (Template.taskForm disabled)
    let given := fun side : Side => (Model.ofMembers params).value? side.key
    ((∃ f, built = .ok f) ↔ ∀ side v, given side = some v → v.IsColumnList) ∧
    (∀ f, built = .ok f → ∀ side, ∃ cs : List Column,
      f.resolver.model.value? side.key = some (.list (cs.map .column)) ∧
        Describes ((given side).getD (.list [])) cs) ∧
    (∀ fault, built = .error fault →
      (∃ v, given .source = some v ∧ Refused Side.source.key v fault) ∨
        (∀ v, given .source = some v → v.IsColumnList) ∧
          ∃ v, given .target = some v ∧ Refused Side.target.key v fault) ∧
    ∀ side, (∀ v, given side = some v ↔ LastLeaf params side.key v) ∧
      ((Assoc.keys params).Nodup → "" ∉ Assoc.keys params →
        given side = (Assoc.valueOf? params side.key).filter (!·.isObject)) := by
  refine ⟨exists_ofValues_iff, fun f hf side => records_ofValues hf side,
    fun fault hfault => refused_of_ofValues hfault, fun side => ⟨fun v => ?_, ?_⟩⟩
  · exact Model.value?_ofMembers_iff
  · intro hnames hroot
    exact Model.value?_ofMembers_plain hnames hroot (by cases side <;> decide)

/-- A job with an infinite position in its source list. -/
def endlessJob : Assoc Value :=
  [(Keys.sourceColumns, .list [.object [("index", .float (.infinity false))]])]

/-- A job with one column in place of its source list. -/
def unlistedJob : Assoc Value :=
  [(Keys.sourceColumns, .object [("columnName", .text "id")])]

/-- An infinite position is no report on its list, and an object in place of a list is not refused
at all. -/
theorem refusal_missed :
    (∃ fault, ofValues (.object endlessJob) (Template.taskForm []) = .error fault ∧
      ∀ key issues, fault ≠ unreadable key issues) ∧
    ∃ v, Assoc.valueOf? unlistedJob Keys.sourceColumns = some v ∧ ¬ v.IsColumnList ∧
      ∃ f, ofValues (.object unlistedJob) (Template.taskForm []) = .ok f := by
  refine ⟨⟨.infinityHasNoInteger, ?_, fun key issues => nofun⟩, _, rfl, nofun, ?_⟩
  · exact ofValues_taskForm ..
  · exact ⟨_, ofValues_taskForm ..⟩

end Form

end SyncForm
