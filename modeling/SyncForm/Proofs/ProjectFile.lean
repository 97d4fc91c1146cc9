import SyncForm.Proofs.Nesting
import SyncForm.Proofs.Replies
import SyncForm.Settings

/-!
# Settings of a project file

A project file gives settings by the section under its name: an object of values, of which those
count that name a setting whose variable is not set (`Settings.overrides`). Whatever else stands in
place of the section is disregarded, but for lists and texts (`ProjectFile.Lists`). A list of pairs
is taken as the object of these pairs; and where the first entry that is no pair has parts, but not
two of them (`Settings.Misfits`), its fault gets out. A file that cannot be read is disregarded, or
its fault gets out, by the family of the fault. `Settings.load_by_shape` says so of every file and
every environment, and that all other faults are about the value of a setting;
`Settings.shape_escapes` is a file whose fault gets out.
-/

namespace SyncForm

/-- What a project file holds in place of the section. -/
def ProjectFile.entry : ProjectFile → Value
  | .content (.object members) => (Assoc.valueOf? members "jobform").getD .null
  | _ => .null

/-- The fault on which reading a project file failed, if it did. -/
def ProjectFile.failure? : ProjectFile → Option Fault
  | .unread fault => some fault
  | _ => none

/-- A project file holds a list of entries, or a text of characters, in place of the section. -/
def ProjectFile.Lists (file : ProjectFile) (entries : List Value) : Prop :=
  file.entry.isObject = false ∧ file.entry.toSequence = .ok entries

/-- A value has two parts, the first of which may be a key of a table. -/
def Value.IsPair (v : Value) : Prop :=
  ∃ name w, v.toSequence = .ok [name, w] ∧ name.isKey = true

/-- A list of which not all items have a property has a first one without it. -/
theorem exists_first_not {α : Type} {p : α → Prop} {xs : List α} (h : ¬ ∀ x ∈ xs, p x) :
    ∃ before x after, xs = before ++ x :: after ∧ (∀ b ∈ before, p b) ∧ ¬ p x := by
  induction xs with
  | nil => exact absurd (fun _ hx => absurd hx List.not_mem_nil) h
  | cons x rest ih =>
    by_cases hx : p x
    · obtain ⟨before, y, after, rfl, hbefore, hy⟩ :=
        ih fun hrest => h (List.forall_mem_cons.2 ⟨hx, hrest⟩)
      exact ⟨x :: before, y, after, rfl, List.forall_mem_cons.2 ⟨hx, hbefore⟩, hy⟩
    · exact ⟨[], x, rest, rfl, fun _ hb => absurd hb List.not_mem_nil, hx⟩

/-! ## Places of issues -/

namespace Checked

variable {α β : Type} {names : List String}

/-- All issues that are found stand in fields of the given names. -/
def Within (names : List String) (c : Checked α) : Prop :=
  ∀ issues, c = .error issues → ∀ issue ∈ issues, ∃ name ∈ names, ∃ rest,
    issue.path = .field name :: rest

/-- An optional field has its issues in that field. -/
theorem within_optional (members : Assoc Value) {name : String} (usual : α)
    (check : Value → Checked α) (hname : name ∈ names) :
    (optional members [name] usual check).Within names := by
  intro issues h issue hissue
  unfold optional named? at h
  cases hvalue : Assoc.valueOf? members name with
  | none => simp [hvalue] at h
  | some v =>
    simp only [hvalue, List.findSome?_cons, Option.map_some] at h
    cases hcheck : check v with
    | ok x => rw [hcheck] at h; cases h
    | error found =>
      rw [hcheck] at h
      cases h
      obtain ⟨inner, -, rfl⟩ := List.mem_map.1 hissue
      exact ⟨name, hname, inner.path, rfl⟩

/-- Two checks together have their issues where each of them has. -/
theorem Within.both {a : Checked α} {b : Checked β} (ha : a.Within names) (hb : b.Within names) :
    (a.both b).Within names := by
  intro issues h issue hissue
  unfold Checked.both at h
  split at h
  · cases h
  · cases h
    exact hb _ rfl issue hissue
  · cases h
    exact ha _ rfl issue hissue
  · cases h
    exact (List.mem_append.1 hissue).elim (ha _ rfl issue) (hb _ rfl issue)

/-- What is made of a checked value has the same issues. -/
theorem Within.bind_ok {a : Checked α} (ha : a.Within names) (f : α → β) :
    (a >>= fun x => .ok (f x) : Checked β).Within names := by
  intro issues h
  cases a with
  | ok x => cases h
  | error found =>
    cases h
    exact ha _ rfl

end Checked

namespace Settings

variable {entries before : List Value} {i : Nat}

/-! ## Lists of pairs -/

/-- What an entry adds to a table: a pair adds its second part under the name that is its first
one, if that is a text. -/
def pair? (entry : Value) : Option (String × Value) :=
  match entry.toSequence with
  | .ok [.text name, v] => some (name, v)
  | _ => none

/-- Behind pairs only, an entry has parts, but not two of them. -/
def Misfits (entries : List Value) (i n : Nat) : Prop :=
  ∃ before entry after parts, entries = before ++ entry :: after ∧ (∀ b ∈ before, b.IsPair) ∧
    before.length = i ∧ entry.toSequence = .ok parts ∧ parts.length = n ∧ n ≠ 2

/-- Pairs at the front of a list are written to the table. -/
theorem ofPairs_append (done : Assoc Value) (i : Nat) (hbefore : ∀ b ∈ before, b.IsPair)
    (rest : List Value) :
    ofPairs done i (before ++ rest) =
      ofPairs (Assoc.putAll done (before.filterMap pair?)) (i + before.length) rest := by
  induction before generalizing done i with
  | nil => rfl
  | cons b before ih =>
    obtain ⟨⟨name, v, hparts, hname⟩, hrest⟩ := List.forall_mem_cons.1 hbefore
    have hlength : i + (b :: before).length = i + 1 + before.length := by
      rw [List.length_cons]
      omega
    rw [List.cons_append, ofPairs, hparts, hlength]
    cases name with
    | list items => cases hname
    | object members => cases hname
    | column record => cases hname
    | text s =>
      have hpair : pair? b = some (s, v) := by rw [pair?, hparts]
      rw [List.filterMap_cons_some hpair]
      exact ih _ _ hrest
    | _ =>
      have hpair : pair? b = none := by rw [pair?, hparts]
      rw [List.filterMap_cons_none hpair]
      exact ih _ _ hrest

/-- An entry that is no pair is a fault: one that gets out if it has parts, but not two of them. -/
theorem ofPairs_cons_of_not_pair (done : Assoc Value) (i : Nat) {entry : Value}
    (h : ¬ entry.IsPair) (rest : List Value) :
    (∃ parts, entry.toSequence = .ok parts ∧ parts.length ≠ 2 ∧
      ofPairs done i (entry :: rest) = .error (.badPair i parts.length)) ∨
    ((∀ parts, entry.toSequence = .ok parts → parts.length = 2) ∧
      ∃ fault, ofPairs done i (entry :: rest) = .error fault ∧ isDisregarded fault = true) := by
  cases hparts : entry.toSequence with
  | error cause =>
    refine .inr ⟨nofun, .notPair i, ?_, rfl⟩
    rw [ofPairs, hparts]
    rfl
  | ok parts =>
    match parts, hparts with
    | [name, v], hparts =>
      have hname : name.isKey = false := by
        by_contra hkey
        exact h ⟨name, v, hparts, eq_true_of_ne_false hkey⟩
      refine .inr ⟨fun parts hother => ?_, .notHashable name.kind, ?_, rfl⟩
      · cases hother
        rfl
      · rw [ofPairs, hparts]
        cases name <;> first | rfl | cases hname
    | [], hparts =>
      refine .inl ⟨[], rfl, by decide, ?_⟩
      rw [ofPairs, hparts]
      rfl
    | [part], hparts =>
      refine .inl ⟨[part], rfl, by simp, ?_⟩
      rw [ofPairs, hparts]
      cases part <;> rfl
    | first :: second :: third :: more, hparts =>
      refine .inl ⟨_, rfl, by simp, ?_⟩
      rw [ofPairs, hparts]
      cases first <;> rfl

/-! ## The shapes of a file -/

variable {file : ProjectFile} {env : Environment} {members : Assoc Value} {fault : Fault}

/-- The arguments that a section makes: the known settings whose variable is not set. -/
def overrides (env : Environment) (members : Assoc Value) : Assoc Value :=
  members.filter fun (setting, _) =>
    names.contains setting && !Assoc.holds env (variableName setting)

/-- A file that is not empty and no object has no section to be read. -/
theorem sectionOf_spec (v : Value) :
    sectionOf v = tableOf ((ProjectFile.content v).entry.orElse (.object [])) ∨
      (ProjectFile.content v).entry = .null ∧ sectionOf v = .error (.lacks v.kind "get") := by
  unfold sectionOf
  by_cases hgiven : v.isTrue = true
  · rw [Value.orElse, if_pos hgiven]
    cases v with
    | object members => exact .inl rfl
    | _ => exact .inr ⟨rfl, rfl⟩
  · rw [Value.orElse, if_neg hgiven]
    cases v with
    | object members =>
      cases members with
      | nil => exact .inl rfl
      | cons kv rest => exact absurd rfl hgiven
    | _ => exact .inl rfl

/-- Settings are loaded from what a project file gives, unless it is disregarded. -/
theorem load_eq_of_read (file : ProjectFile) (env : Environment) :
    load file env =
      match readProject file with
      | .ok members => ofArguments (overrides env members) env
      | .error fault => if isDisregarded fault then ofArguments [] env else .error fault := by
  unfold load fromProject
  cases readProject file with
  | ok members => rfl
  | error fault =>
    dsimp only
    cases isDisregarded fault <;> rfl

/-- Settings are loaded from what stands in place of the section of a file that was read, unless
that is disregarded. -/
theorem load_eq_of_entry (hread : file.failure? = none) :
    load file env =
      match tableOf (file.entry.orElse (.object [])) with
      | .ok members => ofArguments (overrides env members) env
      | .error fault => if isDisregarded fault then ofArguments [] env else .error fault := by
  rw [load_eq_of_read]
  cases file with
  | absent => rfl
  | unread fault => cases hread
  | content v =>
    rw [readProject]
    rcases sectionOf_spec v with hsection | ⟨hentry, hsection⟩
    · rw [hsection]
    · rw [hsection, hentry]
      rfl

/-- A file that could not be read is disregarded if its fault is of a family on which it is; else
the fault gets out. -/
theorem load_of_failure {fault : Fault} (h : file.failure? = some fault) :
    (fault.family ∈ disregardedFamilies → load file env = ofArguments [] env) ∧
      (fault.family ∉ disregardedFamilies → load file env = .error fault) := by
  cases file with
  | absent => cases h
  | content v => cases h
  | unread cause =>
    cases h
    rw [load_eq_of_read, readProject]
    constructor <;> intro hfamily <;> simp [isDisregarded, hfamily]

/-- Only of a file that was read does anything stand in place of the section. -/
theorem failure?_of_entry (h : file.entry ≠ .null) : file.failure? = none := by
  cases file with
  | unread fault => exact absurd rfl h
  | _ => rfl

/-- A section that is an object gives its members. -/
theorem load_of_section (h : file.entry = .object members) :
    load file env = ofArguments (overrides env members) env := by
  rw [load_eq_of_entry (failure?_of_entry (by simp [h])), h]
  cases members <;> rfl

/-- What stands in place of a section and lists nothing is disregarded. -/
theorem load_of_atom (hread : file.failure? = none) (h : file.entry.isAtom = true) :
    load file env = ofArguments [] env := by
  rw [load_eq_of_entry hread, Value.orElse]
  generalize file.entry = v at h
  by_cases hgiven : v.isTrue = true
  · rw [if_pos hgiven]
    cases v <;> first | rfl | cases h
  · rw [if_neg hgiven]
    rfl

/-- A list, or a text, in place of the section is read entry by entry. -/
theorem load_of_lists (h : file.Lists entries) :
    load file env =
      match ofPairs [] 0 entries with
      | .ok members => ofArguments (overrides env members) env
      | .error fault => if isDisregarded fault then ofArguments [] env else .error fault := by
  obtain ⟨hobject, hentries⟩ := h
  have hread : file.failure? = none := by
    refine failure?_of_entry fun hnull => ?_
    rw [hnull] at hentries
    cases hentries
  rw [load_eq_of_entry hread, Value.orElse]
  generalize file.entry = v at hobject hentries
  by_cases hgiven : v.isTrue = true
  · rw [if_pos hgiven]
    cases v with
    | list items =>
      cases hentries
      rfl
    | text s =>
      cases hentries
      rfl
    | object members => cases hobject
    | _ => cases hentries
  · rw [if_neg hgiven]
    -- A list, or a text, that does not count as given has no entries.
    obtain rfl : entries = [] := by
      cases v with
      | list items =>
        cases hentries
        simpa [Value.isTrue] using hgiven
      | text s =>
        cases hentries
        have hempty : s = "" := by simpa [Value.isTrue] using hgiven
        rw [hempty]
        rfl
      | object members => cases hobject
      | _ => cases hentries
    rfl

/-- A list of pairs in place of the section gives these pairs. -/
theorem load_of_pairs (h : file.Lists entries) (hpairs : ∀ e ∈ entries, e.IsPair) :
    load file env =
      ofArguments (overrides env (Assoc.putAll [] (entries.filterMap pair?))) env := by
  have hread := ofPairs_append [] 0 hpairs []
  rw [List.append_nil] at hread
  rw [load_of_lists h, hread]
  rfl

/-- A list in place of the section whose first entry that is no pair has parts, but not two of them,
is a fault. -/
theorem load_of_misfits {n : Nat} (h : file.Lists entries) (hmisfits : Misfits entries i n) :
    load file env = .error (.badPair i n) := by
  obtain ⟨before, entry, after, parts, rfl, hbefore, rfl, hparts, rfl, hlength⟩ := hmisfits
  have hentry : ¬ entry.IsPair := by
    rintro ⟨name, v, hpair, -⟩
    cases hparts.symm.trans hpair
    exact hlength rfl
  rw [load_of_lists h, ofPairs_append [] 0 hbefore, Nat.zero_add]
  rcases ofPairs_cons_of_not_pair (Assoc.putAll [] (before.filterMap pair?)) before.length hentry
    after with ⟨others, hothers, -, hread⟩ | ⟨hpair, -⟩
  · cases hparts.symm.trans hothers
    rw [hread]
    rfl
  · exact absurd (hpair parts hparts) hlength

/-- All other lists, and texts, in place of the section are disregarded. -/
theorem load_of_others (h : file.Lists entries) (hpairs : ¬ ∀ e ∈ entries, e.IsPair)
    (hmisfits : ∀ i n, ¬ Misfits entries i n) : load file env = ofArguments [] env := by
  obtain ⟨before, entry, after, rfl, hbefore, hentry⟩ := exists_first_not hpairs
  rw [load_of_lists h, ofPairs_append [] 0 hbefore]
  rcases ofPairs_cons_of_not_pair (Assoc.putAll [] (before.filterMap pair?)) (0 + before.length)
    hentry after with ⟨parts, hparts, hlength, -⟩ | ⟨-, fault, hread, hfault⟩
  · exact absurd ⟨before, entry, after, parts, rfl, hbefore, rfl, hparts, rfl, hlength⟩
      (hmisfits _ _)
  · rw [hread]
    exact if_pos hfault

/-! ## Faults of settings -/

/-- An environment that is not readable holds no JSON where lists are written as JSON. -/
theorem fromEnvironment_eq_error (h : fromEnvironment env = .error fault) :
    fault = .unreadableSetting disabledName := by
  have hread : names.mapM (fun setting => (fromVariable env setting).map fun v => (setting, v)) =
      .error fault := by
    unfold fromEnvironment at h
    cases hgiven : names.mapM fun setting =>
        (fromVariable env setting).map fun v => (setting, v) with
    | ok given => rw [hgiven] at h; cases h
    | error cause => rw [hgiven] at h; exact h
  obtain ⟨setting, -, hsetting⟩ := exists_of_mapM_eq_error hread
  unfold fromVariable at hsetting
  split at hsetting
  · cases hsetting
  · split at hsetting
    · next hname =>
      split at hsetting
      · cases hsetting
      · cases hsetting
        rw [hname]
    · cases hsetting

/-- Given values of settings have their issues under the names of settings. -/
theorem within_ofGiven (given : Assoc Value) : (ofGiven given []).Within names := by
  unfold ofGiven
  refine Checked.Within.bind_ok (Checked.Within.both ?_ (.both ?_ (.both ?_ (.both ?_ (.both ?_
    (.both ?_ (.both ?_ ?_))))))) _
  · exact Checked.within_optional _ _ _ (by decide)
  · exact Checked.within_optional _ _ _ (by decide)
  · exact Checked.within_optional _ _ _ (by decide)
  · exact Checked.within_optional _ _ _ (by decide)
  · exact Checked.within_optional _ _ _ (by decide)
  · exact Checked.within_optional _ _ _ (by decide)
  · exact Checked.within_optional _ _ _ (by decide)
  · exact fun issues h => nomatch h

/-- The arguments that a section makes name known settings only. -/
theorem unknown_overrides (env : Environment) (members : Assoc Value) :
    (Assoc.keys (overrides env members)).filter (!names.contains ·) = [] := by
  refine List.filter_eq_nil_iff.2 fun setting hsetting => ?_
  obtain ⟨⟨_, v⟩, hmem, rfl⟩ := List.mem_map.1 hsetting
  have hkept := (List.mem_filter.1 hmem).2
  simp only [Bool.and_eq_true] at hkept
  rw [hkept.1]
  decide

/-- Settings of arguments that a section makes fail as the environment alone does, or by issues of
settings. -/
theorem ofArguments_overrides_eq_error
    (h : ofArguments (overrides env members) env = .error fault) :
    fault = .unreadableSetting disabledName ∧ ofArguments [] env = .error fault ∨
      ∃ issues, fault = .refused issues ∧ ∀ issue ∈ issues, ∃ setting ∈ names, ∃ rest,
        issue.path = .field setting :: rest := by
  unfold ofArguments at h ⊢
  rw [unknown_overrides] at h
  cases hread : fromEnvironment env with
  | error cause =>
    rw [hread] at h
    cases h
    exact .inl ⟨fromEnvironment_eq_error hread, rfl⟩
  | ok given =>
    rw [hread] at h
    have hgiven : (ofGiven (Assoc.putAll given (overrides env members)) []).mapError .refused =
        .error fault := h
    cases hsettings : ofGiven (Assoc.putAll given (overrides env members)) [] with
    | ok settings => rw [hsettings] at hgiven; cases hgiven
    | error issues =>
      rw [hsettings] at hgiven
      cases hgiven
      exact .inr ⟨issues, rfl, within_ofGiven _ issues hsettings⟩

/-- A project file with a section that is an object makes the settings of those known values whose
variable is not set. A list of pairs in place of the section is taken as such an object; a list, or
a text, whose first entry that is no pair has parts, but not two of them, is a fault that gets out;
all else is disregarded. A file that could not be read is disregarded if the fault is of the file
system, of the grammar or on a value of another kind; any other fault gets out. Apart from these
faults loading fails on the environment, as it does without a file, or by issues of settings. -/
theorem load_by_shape (file : ProjectFile) (env : Environment) :
    (∀ members, file.entry = .object members →
      load file env = ofArguments (overrides env members) env) ∧
    (file.failure? = none → file.entry.isAtom = true → load file env = ofArguments [] env) ∧
    (∀ entries, file.Lists entries →
      ((∀ e ∈ entries, e.IsPair) → load file env =
        ofArguments (overrides env (Assoc.putAll [] (entries.filterMap pair?))) env) ∧
      (∀ i n, Misfits entries i n → load file env = .error (.badPair i n)) ∧
      (¬ (∀ e ∈ entries, e.IsPair) → (∀ i n, ¬ Misfits entries i n) →
        load file env = ofArguments [] env)) ∧
    (∀ fault, file.failure? = some fault →
      (fault.family ∈ disregardedFamilies → load file env = ofArguments [] env) ∧
      (fault.family ∉ disregardedFamilies → load file env = .error fault)) ∧
    ∀ fault, load file env = .error fault →
      (∃ entries i n, file.Lists entries ∧ Misfits entries i n ∧ fault = .badPair i n) ∨
      (file.failure? = some fault ∧ fault.family ∉ disregardedFamilies) ∨
      (fault = .unreadableSetting disabledName ∧ ofArguments [] env = .error fault) ∨
      ∃ issues, fault = .refused issues ∧ ∀ issue ∈ issues, ∃ setting ∈ names, ∃ rest,
        issue.path = .field setting :: rest := by
  refine ⟨fun members => load_of_section, load_of_atom, fun entries hentries =>
    ⟨load_of_pairs hentries, fun i n => load_of_misfits hentries, load_of_others hentries⟩,
    fun fault => load_of_failure, fun fault hfault => ?_⟩
  have hshape : (∃ members, load file env = ofArguments (overrides env members) env) ∨
      (∃ entries i n, file.Lists entries ∧ Misfits entries i n) ∨
      ∃ cause, file.failure? = some cause ∧ cause.family ∉ disregardedFamilies := by
    cases hread : file.failure? with
    | some cause =>
      by_cases hfamily : cause.family ∈ disregardedFamilies
      · exact .inl ⟨[], (load_of_failure hread).1 hfamily⟩
      · exact .inr (.inr ⟨cause, rfl, hfamily⟩)
    | none =>
      cases hentries : file.entry.toSequence with
      | error cause =>
        exact .inl ⟨[], load_of_atom hread (Value.toSequence_eq_error.1 hentries).1⟩
      | ok entries =>
        cases hobject : file.entry.isObject with
        | true =>
          cases hentry : file.entry with
          | object members => exact .inl ⟨members, load_of_section hentry⟩
          | _ => rw [hentry] at hobject; cases hobject
        | false =>
          by_cases hpairs : ∀ e ∈ entries, e.IsPair
          · exact .inl ⟨_, load_of_pairs ⟨hobject, hentries⟩ hpairs⟩
          · by_cases hmisfits : ∀ i n, ¬ Misfits entries i n
            · exact .inl ⟨[], load_of_others ⟨hobject, hentries⟩ hpairs hmisfits⟩
            · push Not at hmisfits
              obtain ⟨i, n, hmisfits⟩ := hmisfits
              exact .inr (.inl ⟨entries, i, n, ⟨hobject, hentries⟩, hmisfits⟩)
  rcases hshape with ⟨members, hload⟩ | ⟨entries, i, n, hentries, hmisfits⟩ |
    ⟨cause, hread, hfamily⟩
  · exact .inr (.inr (ofArguments_overrides_eq_error (hload.symm.trans hfault)))
  · cases (load_of_misfits hentries hmisfits).symm.trans hfault
    exact .inl ⟨entries, i, n, hentries, hmisfits, rfl⟩
  · cases ((load_of_failure hread).2 hfamily).symm.trans hfault
    exact .inr (.inl ⟨hread, hfamily⟩)

/-- A project file with a text in place of the section. -/
def wordFile : ProjectFile :=
  .content (.object [("jobform", .text "abc")])

/-- A text in place of the section is no object, and yet its fault gets out of an environment
without any variable. -/
theorem shape_escapes :
    (∀ members, wordFile.entry ≠ .object members) ∧ load wordFile [] = .error (.badPair 0 1) ∧
      load wordFile [] ≠ ofArguments [] [] := by
  have hload : load wordFile [] = .error (.badPair 0 1) := by rfl
  refine ⟨fun members => nofun, hload, fun hsame => ?_⟩
  cases hload.symm.trans hsame

end Settings

end SyncForm
