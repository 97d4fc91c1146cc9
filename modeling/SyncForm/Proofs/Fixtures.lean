import SyncForm.Catalog.Fixture
import SyncForm.Proofs.ColumnLists
import SyncForm.Proofs.Nesting
import SyncForm.Proofs.Replies

/-!
# Catalogs built from plain data

Data build a fixture just where nothing in them is refused and nothing is misplaced
(`Fixture.built_or_faulty`). A refused payload (`Refuses`) is reported as a malformed fixture. What
is misplaced (`Misplaced`) is not: a level that should be an object and is none, an entry that
should list items and has none, a latency that is no number; its own fault gets out, as it does for
`Fixture.misplaced_level`.

A fixture that is built answers from the data: the entry that counts for a key is the last one whose
name comes to it (`last?`), and each of the tables holds of every key what its entry is read as
(`valueOf?_convert`).
-/

namespace SyncForm

/-- The members of a value that should be an object; a value that is not given has none. -/
def Value.HasMembers (v : Value) (entries : Assoc Value) : Prop :=
  (v.orElse (.object [])).toMembersOf = .ok entries

/-- The members of a value are there unless it counts as given and is no object. -/
theorem Value.toMembersOf_orElse_eq_error {v : Value} {fault : Fault} :
    (v.orElse (.object [])).toMembersOf = .error fault ↔
      (v.isTrue = true ∧ v.isObject = false) ∧ fault = .lacks v.kind "items" := by
  by_cases hgiven : v.isTrue = true
  · rw [orElse, if_pos hgiven]
    cases v <;> simp [toMembersOf, isObject, hgiven, eq_comm]
  · rw [orElse, if_neg hgiven]
    simp [toMembersOf, hgiven]

namespace Fixture

/-- The value that counts for a key: the last one whose name comes to the key. -/
def last? (form : String → String) (entries : Assoc Value) (key : String) : Option Value :=
  (entries.reverse.find? fun e => form e.1 == key).map (·.2)

/-- The first entry counts for a key where no later one does. -/
theorem last?_cons (form : String → String) (name : String) (v : Value) (rest : Assoc Value)
    (key : String) : last? form ((name, v) :: rest) key =
      (last? form rest key).or (if form name = key then some v else none) := by
  unfold last?
  rw [List.reverse_cons, List.find?_append, Option.map_or]
  by_cases hname : form name = key <;> simp [hname]

/-! ## Tables -/

section

variable {α : Type} {form : String → String} {read : Value → Except Fault α}
  {entries : Assoc Value} {done table : Assoc α} {fault : Fault}

/-- A table is converted just where every entry is. -/
theorem exists_convert : (∃ table, convert form read entries done = .ok table) ↔
    ∀ e ∈ entries, ∃ x, read e.2 = .ok x := by
  induction entries generalizing done with
  | nil => exact ⟨fun _ _ he => absurd he List.not_mem_nil, fun _ => ⟨done, rfl⟩⟩
  | cons e rest ih =>
    rw [List.forall_mem_cons, convert]
    simp only [Except.bind_eq_ok]
    constructor
    · rintro ⟨table, x, hx, hrest⟩
      exact ⟨⟨x, hx⟩, ih.1 ⟨table, hrest⟩⟩
    · rintro ⟨⟨x, hx⟩, hrest⟩
      obtain ⟨table, htable⟩ := ih.2 hrest
      exact ⟨table, x, hx, htable⟩

/-- A table that is not converted ends in the fault of one of its entries. -/
theorem exists_of_convert_eq_error (h : convert form read entries done = .error fault) :
    ∃ e ∈ entries, read e.2 = .error fault := by
  induction entries generalizing done with
  | nil => cases h
  | cons e rest ih =>
    rw [convert, Except.bind_eq_error] at h
    rcases h with hfails | ⟨x, -, hrest⟩
    · exact ⟨e, .head _, hfails⟩
    · obtain ⟨other, hother, hfails⟩ := ih hrest
      exact ⟨other, .tail _ hother, hfails⟩

/-- A converted table holds what the values that count are read as, and nothing else is written to
it. -/
theorem valueOf?_convert (h : convert form read entries done = .ok table) (key : String) :
    match last? form entries key with
    | some v => ∃ x, read v = .ok x ∧ Assoc.valueOf? table key = some x
    | none => Assoc.valueOf? table key = Assoc.valueOf? done key := by
  induction entries generalizing done with
  | nil =>
    cases h
    rfl
  | cons e rest ih =>
    obtain ⟨name, w⟩ := e
    rw [convert, Except.bind_eq_ok] at h
    obtain ⟨x, hx, hrest⟩ := h
    have hheld := ih hrest
    rw [last?_cons]
    cases hlater : last? form rest key with
    | some v =>
      rw [hlater] at hheld
      exact hheld
    | none =>
      simp only [hlater, Assoc.valueOf?_put] at hheld
      by_cases hname : form name = key
      · rw [if_pos hname] at hheld ⊢
        exact ⟨x, hx, hheld⟩
      · rw [if_neg hname] at hheld ⊢
        exact hheld

/-- Reads the members of a value, each of them as a value. -/
def readLevel (form : String → String) (read : Value → Except Fault α) (v : Value) :
    Except Fault (Assoc α) :=
  (v.orElse (.object [])).toMembersOf >>= fun entries => convert form read entries []

/-- The value that counts for a key among the members of a value. -/
def below? (form : String → String) (v : Value) (key : String) : Option Value :=
  match (v.orElse (.object [])).toMembersOf with
  | .ok entries => last? form entries key
  | .error _ => none

/-- A level is read where it has members, each of which is read; it holds what the values that count
are read as. -/
theorem readLevel_spec {v : Value} (h : readLevel form read v = .ok table) :
    (∃ entries, v.HasMembers entries ∧ ∀ e ∈ entries, ∃ x, read e.2 = .ok x) ∧
      ∀ key, match below? form v key with
        | some w => ∃ x, read w = .ok x ∧ Assoc.valueOf? table key = some x
        | none => Assoc.valueOf? table key = none := by
  obtain ⟨entries, hentries, htable⟩ := Except.bind_eq_ok.1 h
  refine ⟨⟨entries, hentries, exists_convert.1 ⟨table, htable⟩⟩, fun key => ?_⟩
  rw [below?, hentries]
  exact valueOf?_convert htable key

/-- A level is not read where it should be an object and is none, or one of its members is not
read. -/
theorem readLevel_eq_error {v : Value} (h : readLevel form read v = .error fault) :
    ((v.isTrue = true ∧ v.isObject = false) ∧ fault = .lacks v.kind "items") ∨
      ∃ entries, v.HasMembers entries ∧ ∃ e ∈ entries, read e.2 = .error fault := by
  rcases Except.bind_eq_error.1 h with hlevel | ⟨entries, hentries, hfails⟩
  · exact .inl (Value.toMembersOf_orElse_eq_error.1 hlevel)
  · exact .inr ⟨entries, hentries, exists_of_convert_eq_error hfails⟩

end

/-! ## The parts of the data -/

variable {members : Assoc Value} {v : Value} {fault : Fault} {issues : List Issue}

/-- A checked payload is there where the check found nothing. -/
theorem checked_eq_ok {α : Type} {c : Checked α} {x : α} : checked c = .ok x ↔ c = .ok x := by
  cases c <;> simp [checked, Except.mapError]

/-- A payload that is refused is reported as a malformed fixture. -/
theorem checked_eq_error {α : Type} {c : Checked α} :
    checked c = .error fault ↔ ∃ issues, c = .error issues ∧ fault = malformed issues := by
  cases c <;> simp [checked, Except.mapError, eq_comm]

/-- What is converted in order has every item converted. -/
theorem exists_of_forall₂ {α β : Type} {r : α → β → Prop} {xs : List α} {ys : List β}
    (h : List.Forall₂ r xs ys) {x : α} (hx : x ∈ xs) : ∃ y, r x y := by
  induction h with
  | nil => exact absurd hx List.not_mem_nil
  | cons hfirst _ ih =>
    rcases List.mem_cons.1 hx with rfl | hrest
    · exact ⟨_, hfirst⟩
    · exact ih hrest

/-- The types in use as the data list them, if they do. -/
def typesOf (members : Assoc Value) : Except Fault (List DatasourceType) :=
  match Assoc.valueOf? members "types" with
  | some v => v.toSequence >>= fun items => items.mapM fun t => checked (DatasourceType.ofValue t)
  | none => .ok DatasourceType.builtIn

/-- What the data hold in place of a level, `null` if nothing. -/
def part (members : Assoc Value) (name : String) : Value :=
  (Assoc.valueOf? members name).getD .null

/-- A fixture is read part by part. -/
theorem ofMembers_eq (members : Assoc Value) :
    ofMembers members =
      typesOf members >>= fun types =>
      readLevel Text.upper readInstances (part members "instances") >>= fun instances =>
      readLevel id readTables (part members "columns") >>= fun columns =>
      ((Assoc.valueOf? members "latency").getD (.float Binary64.zero)).toReal >>= fun latency =>
      readLevel id Value.toSequence (part members "tables") >>= fun tables =>
      .ok { types, instances, tables, columns, latency } := by
  unfold ofMembers typesOf readLevel
  cases Assoc.valueOf? members "types" <;> simp only [bind_assoc] <;> rfl

/-- What is misplaced in the data, with its fault: types or tables that have no items, a level that
is no object, the instances of a type that count as given and have no items, tables of a datasource
that are no object, and a latency that is no number. -/
inductive Misplaced (members : Assoc Value) : Fault → Prop
  | types {v : Value} : Assoc.valueOf? members "types" = some v → v.isAtom = true →
    Misplaced members (.notIterable v.kind)
  | level {name : String} : name ∈ ["instances", "columns", "tables"] →
    (part members name).isTrue = true → (part members name).isObject = false →
    Misplaced members (.lacks (part members name).kind "items")
  | instances {entries : Assoc Value} {code : String} {v : Value} :
    (part members "instances").HasMembers entries → (code, v) ∈ entries → ¬ v.ListsItems →
    Misplaced members (.notIterable v.kind)
  | columns {entries : Assoc Value} {id : String} {v : Value} :
    (part members "columns").HasMembers entries → (id, v) ∈ entries →
    v.isTrue = true → v.isObject = false → Misplaced members (.lacks v.kind "items")
  | tables {entries : Assoc Value} {id : String} {v : Value} :
    (part members "tables").HasMembers entries → (id, v) ∈ entries → v.isAtom = true →
    Misplaced members (.notIterable v.kind)
  | latency {v : Value} {fault : Fault} : Assoc.valueOf? members "latency" = some v →
    v.toReal = .error fault → Misplaced members fault

/-- A payload in the data is refused with these issues: a type, an instance or the columns of a
table. -/
inductive Refuses (members : Assoc Value) : List Issue → Prop
  | types {v t : Value} {items : List Value} {issues : List Issue} :
    Assoc.valueOf? members "types" = some v → v.toSequence = .ok items → t ∈ items →
    DatasourceType.ofValue t = .error issues → Refuses members issues
  | instances {entries : Assoc Value} {code : String} {v i : Value} {items : List Value}
    {issues : List Issue} :
    (part members "instances").HasMembers entries → (code, v) ∈ entries →
    Remote.itemsOf v = .ok items → i ∈ items →
    DatasourceInstance.ofValue i = .error issues → Refuses members issues
  | columns {entries tables : Assoc Value} {id table : String} {v info : Value}
    {issues : List Issue} :
    (part members "columns").HasMembers entries → (id, v) ∈ entries →
    v.HasMembers tables → (table, info) ∈ tables →
    TableColumns.ofValue (info.orElse (.object [])) = .error issues → Refuses members issues

/-! ## Reading the parts -/

/-- The types are read where each of them is; without any the built-in ones are in use. -/
theorem typesOf_eq_ok {types : List DatasourceType} (h : typesOf members = .ok types) :
    (Assoc.valueOf? members "types" = none ∧ types = DatasourceType.builtIn) ∨
      ∃ v items, Assoc.valueOf? members "types" = some v ∧ v.toSequence = .ok items ∧
        List.Forall₂ (fun t x => DatasourceType.ofValue t = .ok x) items types := by
  unfold typesOf at h
  cases hv : Assoc.valueOf? members "types" with
  | none =>
    rw [hv] at h
    cases h
    exact .inl ⟨rfl, rfl⟩
  | some v =>
    rw [hv] at h
    obtain ⟨items, hitems, htypes⟩ := Except.bind_eq_ok.1 h
    rw [mapM_eq_ok] at htypes
    exact .inr ⟨v, items, rfl, hitems, htypes.imp fun _ _ => checked_eq_ok.1⟩

/-- The types are not read where they have no items or one of them is refused. -/
theorem typesOf_eq_error (h : typesOf members = .error fault) :
    Misplaced members fault ∨ ∃ issues, Refuses members issues ∧ fault = malformed issues := by
  unfold typesOf at h
  cases hv : Assoc.valueOf? members "types" with
  | none =>
    rw [hv] at h
    cases h
  | some v =>
    rw [hv] at h
    rcases Except.bind_eq_error.1 h with hsequence | ⟨items, hitems, hrefused⟩
    · obtain ⟨hatom, rfl⟩ := Value.toSequence_eq_error.1 hsequence
      exact .inl (.types hv hatom)
    · obtain ⟨t, ht, hfails⟩ := exists_of_mapM_eq_error hrefused
      obtain ⟨issues, hissues, rfl⟩ := checked_eq_error.1 hfails
      exact .inr ⟨issues, .types hv hitems ht hissues, rfl⟩

/-- The instances of a type are read in order. -/
theorem readInstances_eq_ok {xs : List DatasourceInstance} : readInstances v = .ok xs ↔
    ∃ items, Remote.itemsOf v = .ok items ∧
      List.Forall₂ (fun i x => DatasourceInstance.ofValue i = .ok x) items xs := by
  refine Except.bind_eq_ok.trans (exists_congr fun items => and_congr_right fun _ => ?_)
  rw [mapM_eq_ok]
  simp only [checked_eq_ok]

/-- The instances of a type are not read where they have no items or one of them is refused. -/
theorem readInstances_eq_error (h : readInstances v = .error fault) :
    (¬ v.ListsItems ∧ fault = .notIterable v.kind) ∨
      ∃ items, Remote.itemsOf v = .ok items ∧ ∃ i ∈ items, ∃ issues,
        DatasourceInstance.ofValue i = .error issues ∧ fault = malformed issues := by
  by_cases hlists : v.ListsItems
  · rcases Except.bind_eq_error.1 h with hsequence | ⟨items, hitems, hrefused⟩
    · obtain ⟨items, hitems⟩ := Remote.exists_itemsOf hlists
      cases hitems.symm.trans hsequence
    · obtain ⟨i, hi, hfails⟩ := exists_of_mapM_eq_error hrefused
      exact .inr ⟨items, hitems, i, hi, checked_eq_error.1 hfails⟩
  · have hsequence : readInstances v = .error (.notIterable v.kind) :=
      Except.bind_eq_error.2 (.inl (Remote.itemsOf_of_not_lists hlists))
    cases h.symm.trans hsequence
    exact .inl ⟨hlists, rfl⟩

/-- Data that make no fixture have something misplaced in them, or something is refused. -/
theorem ofMembers_eq_error (h : ofMembers members = .error fault) :
    Misplaced members fault ∨ ∃ issues, Refuses members issues ∧ fault = malformed issues := by
  simp only [ofMembers_eq, Except.bind_eq_error] at h
  rcases h with htypes | ⟨-, -, hinstances | ⟨-, -, hcolumns | ⟨-, -, hlatency |
    ⟨-, -, htables | ⟨-, -, ⟨⟩⟩⟩⟩⟩⟩
  · exact typesOf_eq_error htypes
  · rcases readLevel_eq_error hinstances with ⟨⟨hgiven, hobject⟩, rfl⟩ |
      ⟨entries, hentries, e, he, hfails⟩
    · exact .inl (.level (by simp) hgiven hobject)
    · rcases readInstances_eq_error hfails with ⟨hlists, rfl⟩ |
        ⟨items, hitems, i, hi, issues, hissues, rfl⟩
      · exact .inl (.instances hentries he hlists)
      · exact .inr ⟨issues, .instances hentries he hitems hi hissues, rfl⟩
  · rcases readLevel_eq_error hcolumns with ⟨⟨hgiven, hobject⟩, rfl⟩ |
      ⟨entries, hentries, e, he, hfails⟩
    · exact .inl (.level (by simp) hgiven hobject)
    · rcases readLevel_eq_error hfails with ⟨⟨hgiven, hobject⟩, rfl⟩ |
        ⟨tables, htables, t, ht, hinfo⟩
      · exact .inl (.columns hentries he hgiven hobject)
      · obtain ⟨issues, hissues, rfl⟩ := checked_eq_error.1 hinfo
        exact .inr ⟨issues, .columns hentries he htables ht hissues, rfl⟩
  · cases hv : Assoc.valueOf? members "latency" with
    | none =>
      rw [hv] at hlatency
      cases hlatency
    | some v =>
      rw [hv] at hlatency
      exact .inl (.latency hv hlatency)
  · rcases readLevel_eq_error htables with ⟨⟨hgiven, hobject⟩, rfl⟩ |
      ⟨entries, hentries, e, he, hfails⟩
    · exact .inl (.level (by simp) hgiven hobject)
    · obtain ⟨hatom, rfl⟩ := Value.toSequence_eq_error.1 hfails
      exact .inl (.tables hentries he hatom)

/-- A fixture is made of its parts. -/
theorem ofMembers_eq_ok {f : Fixture} (h : ofMembers members = .ok f) :
    typesOf members = .ok f.types ∧
      readLevel Text.upper readInstances (part members "instances") = .ok f.instances ∧
      readLevel id readTables (part members "columns") = .ok f.columns ∧
      ((Assoc.valueOf? members "latency").getD (.float Binary64.zero)).toReal = .ok f.latency ∧
      readLevel id Value.toSequence (part members "tables") = .ok f.tables := by
  simp only [ofMembers_eq, Except.bind_eq_ok] at h
  obtain ⟨types, htypes, instances, hinstances, columns, hcolumns, latency, hlatency, tables,
    htables, hmade⟩ := h
  cases hmade
  exact ⟨htypes, hinstances, hcolumns, hlatency, htables⟩

/-- In data that make a fixture nothing is misplaced. -/
theorem not_misplaced {f : Fixture} (h : ofMembers members = .ok f) :
    ¬ Misplaced members fault := by
  obtain ⟨htypes, hinstances, hcolumns, hlatency, htables⟩ := ofMembers_eq_ok h
  obtain ⟨⟨ientries, hientries, hiread⟩, -⟩ := readLevel_spec hinstances
  obtain ⟨⟨centries, hcentries, hcread⟩, -⟩ := readLevel_spec hcolumns
  obtain ⟨⟨tentries, htentries, htread⟩, -⟩ := readLevel_spec htables
  have hlevel : ∀ {v : Value} {entries : Assoc Value}, v.HasMembers entries → v.isTrue = true →
      v.isObject ≠ false := fun hentries hgiven hobject =>
    nomatch hentries.symm.trans (Value.toMembersOf_orElse_eq_error.2 ⟨⟨hgiven, hobject⟩, rfl⟩)
  intro hmisplaced
  cases hmisplaced with
  | types hv hatom =>
    rcases typesOf_eq_ok htypes with ⟨hnone, -⟩ | ⟨w, items, hw, hitems, -⟩
    · cases hv.symm.trans hnone
    · cases hv.symm.trans hw
      cases hitems.symm.trans (Value.toSequence_eq_error.2 ⟨hatom, rfl⟩)
  | level hname hgiven hobject =>
    simp only [List.mem_cons, List.not_mem_nil, or_false] at hname
    rcases hname with rfl | rfl | rfl
    · exact hlevel hientries hgiven hobject
    · exact hlevel hcentries hgiven hobject
    · exact hlevel htentries hgiven hobject
  | instances hentries hmem hlists =>
    cases hientries.symm.trans hentries
    obtain ⟨xs, hxs⟩ := hiread _ hmem
    obtain ⟨items, hitems, -⟩ := readInstances_eq_ok.1 hxs
    cases hitems.symm.trans (Remote.itemsOf_of_not_lists hlists)
  | columns hentries hmem hgiven hobject =>
    cases hcentries.symm.trans hentries
    obtain ⟨tables, htables⟩ := hcread _ hmem
    obtain ⟨⟨entries, hentries, -⟩, -⟩ := readLevel_spec htables
    exact hlevel hentries hgiven hobject
  | tables hentries hmem hatom =>
    cases htentries.symm.trans hentries
    obtain ⟨items, hitems⟩ := htread _ hmem
    cases hitems.symm.trans (Value.toSequence_eq_error.2 ⟨hatom, rfl⟩)
  | latency hv hfails =>
    rw [hv] at hlatency
    cases hlatency.symm.trans hfails

/-- In data that make a fixture nothing is refused. -/
theorem not_refuses {f : Fixture} (h : ofMembers members = .ok f) : ¬ Refuses members issues := by
  obtain ⟨htypes, hinstances, hcolumns, -, -⟩ := ofMembers_eq_ok h
  intro hrefuses
  cases hrefuses with
  | types hv hitems ht hrefused =>
    rcases typesOf_eq_ok htypes with ⟨hnone, -⟩ | ⟨w, others, hw, hothers, hread⟩
    · cases hv.symm.trans hnone
    · cases hv.symm.trans hw
      cases hitems.symm.trans hothers
      obtain ⟨x, hx⟩ := exists_of_forall₂ hread ht
      cases hx.symm.trans hrefused
  | instances hentries hmem hitems hi hrefused =>
    obtain ⟨⟨others, hothers, hread⟩, -⟩ := readLevel_spec hinstances
    cases hothers.symm.trans hentries
    obtain ⟨xs, hxs⟩ := hread _ hmem
    obtain ⟨others, hothers, hread⟩ := readInstances_eq_ok.1 hxs
    cases hitems.symm.trans hothers
    obtain ⟨x, hx⟩ := exists_of_forall₂ hread hi
    cases hx.symm.trans hrefused
  | columns hentries hmem htables ht hrefused =>
    obtain ⟨⟨others, hothers, hread⟩, -⟩ := readLevel_spec hcolumns
    cases hothers.symm.trans hentries
    obtain ⟨tables, hread⟩ := hread _ hmem
    obtain ⟨⟨others, hothers, hread⟩, -⟩ := readLevel_spec hread
    cases hothers.symm.trans htables
    obtain ⟨x, hx⟩ := hread _ ht
    cases (checked_eq_ok.1 hx).symm.trans hrefused

/-- A catalog answers from the data. The types are those of the data, or the built-in ones. A type
has the instances that count for its code in upper case, in order, and none if none do; a datasource
has the tables that count for its id as text, in order, and a table the columns that count for both.
Questions for an unknown datasource or table are reported. -/
structure Answers (members : Assoc Value) (c : Catalog) : Prop where
  types : ∃ types, c.types = .ok types ∧
    ((Assoc.valueOf? members "types" = none ∧ types = DatasourceType.builtIn) ∨
      ∃ v items, Assoc.valueOf? members "types" = some v ∧ v.toSequence = .ok items ∧
        List.Forall₂ (fun t x => DatasourceType.ofValue t = .ok x) items types)
  instances : ∀ code, match below? Text.upper (part members "instances") code with
    | some v => ∃ items xs, Remote.itemsOf v = .ok items ∧
        List.Forall₂ (fun i x => DatasourceInstance.ofValue i = .ok x) items xs ∧
        c.instances (.text code) = .ok xs
    | none => c.instances (.text code) = .ok []
  tables : ∀ datasource, match below? id (part members "tables") datasource.plain with
    | some v => ∃ items, v.toSequence = .ok items ∧ c.tables datasource = .ok items
    | none => ∃ fault, c.tables datasource = .error fault ∧ fault.IsOfCatalog "list_tables" none
  columns : ∀ datasource table,
    match (below? id (part members "columns") datasource.plain).bind (below? id · table) with
    | some info => ∃ columns, TableColumns.ofValue (info.orElse (.object [])) = .ok columns ∧
        c.columns datasource (.text table) = .ok columns
    | none => ∃ fault, c.columns datasource (.text table) = .error fault ∧
        fault.IsOfCatalog "fetch_columns_and_partitions" none

/-- The catalog of a fixture answers from the data that made it. -/
theorem answers {f : Fixture} (h : ofMembers members = .ok f) : Answers members f.toCatalog := by
  obtain ⟨htypes, hinstances, hcolumns, -, htables⟩ := ofMembers_eq_ok h
  refine ⟨⟨f.types, rfl, typesOf_eq_ok htypes⟩, fun code => ?_, fun datasource => ?_,
    fun datasource table => ?_⟩
  · have hheld := (readLevel_spec hinstances).2 code
    have hanswer : f.toCatalog.instances (.text code) =
        .ok ((Assoc.valueOf? f.instances code).getD []) := rfl
    rw [hanswer]
    cases hv : below? Text.upper (part members "instances") code with
    | none =>
      rw [hv] at hheld
      rw [hheld]
      rfl
    | some v =>
      rw [hv] at hheld
      obtain ⟨xs, hxs, hfound⟩ := hheld
      obtain ⟨items, hitems, hread⟩ := readInstances_eq_ok.1 hxs
      rw [hfound]
      exact ⟨items, xs, hitems, hread, rfl⟩
  · have hheld := (readLevel_spec htables).2 datasource.plain
    unfold toCatalog
    dsimp only
    cases hv : below? id (part members "tables") datasource.plain with
    | none =>
      rw [hv] at hheld
      rw [hheld]
      exact ⟨_, rfl, _, _, rfl, rfl⟩
    | some v =>
      rw [hv] at hheld
      obtain ⟨items, hitems, hfound⟩ := hheld
      rw [hfound]
      exact ⟨items, hitems, rfl⟩
  · have hheld := (readLevel_spec hcolumns).2 datasource.plain
    unfold toCatalog
    dsimp only [Value.isKey]
    cases hv : below? id (part members "columns") datasource.plain with
    | none =>
      rw [hv] at hheld
      rw [hheld]
      exact ⟨_, rfl, _, _, rfl, rfl⟩
    | some v =>
      rw [hv] at hheld
      obtain ⟨tables, htables, hfound⟩ := hheld
      rw [hfound]
      have hinner := (readLevel_spec htables).2 table
      rw [Option.bind_some]
      cases hinfo : below? id v table with
      | none =>
        rw [hinfo] at hinner
        simp only [Option.getD_some, hinner]
        exact ⟨_, rfl, _, _, rfl, rfl⟩
      | some info =>
        rw [hinfo] at hinner
        obtain ⟨columns, hread, hcolumns⟩ := hinner
        simp only [Option.getD_some, hcolumns]
        exact ⟨columns, checked_eq_ok.1 hread, rfl⟩

/-- A value that is no number is a fault of its own: it is of another kind, or a text that spells no
number, or an integer beyond all numbers. -/
theorem toReal_eq_error (h : v.toReal = .error fault) :
    fault = .notReal v.kind ∨ (∃ s, fault = .notFloatText s) ∨ fault = .integerTooLarge := by
  unfold Value.toReal at h
  -- How an integer is rounded is left open; unfolding it would not come to an end.
  obtain ⟨ofInt, hofInt⟩ : ∃ f, f = Binary64.ofInt := ⟨_, rfl⟩
  rw [← hofInt] at h
  clear hofInt
  split at h
  · cases h
  · split at h
    · exact .inr (.inr (Except.error.inj h).symm)
    · cases h
  · cases h
  · split at h
    · cases h
    · exact .inr (.inl ⟨_, (Except.error.inj h).symm⟩)
  · exact .inl (Except.error.inj h).symm

/-- What is misplaced is no matter of the catalog. -/
theorem Misplaced.not_isOfCatalog (h : Misplaced members fault) (operation : String)
    (status : Option Int) : ¬ fault.IsOfCatalog operation status := by
  rintro ⟨report, cause, rfl, -⟩
  cases h with
  | latency _ hfails =>
    rcases toReal_eq_error hfails with hfault | ⟨s, hfault⟩ | hfault <;> cases hfault

/-- Whatever an object of data holds, one of three things comes of it. It makes a fixture, whose
catalog answers from the data; then nothing in the data is refused or misplaced. Or it is reported
as malformed while loading, for a payload that is refused. Or something in it is misplaced, whose
fault is no report of a catalog. -/
theorem built_or_faulty (members : Assoc Value) :
    (∃ f, ofValue (.object members) = .ok f ∧ Answers members f.toCatalog ∧
      (∀ issues, ¬ Refuses members issues) ∧ ∀ fault, ¬ Misplaced members fault) ∨
    (∃ issues, ofValue (.object members) = .error (malformed issues) ∧ Refuses members issues ∧
      (malformed issues).IsOfCatalog "load" none) ∨
    ∃ fault, ofValue (.object members) = .error fault ∧ Misplaced members fault ∧
      ∀ operation status, ¬ fault.IsOfCatalog operation status := by
  cases hread : ofMembers members with
  | ok f =>
    exact .inl ⟨f, hread, answers hread, fun _ => not_refuses hread, fun _ => not_misplaced hread⟩
  | error fault =>
    rcases ofMembers_eq_error hread with hmisplaced | ⟨issues, hrefuses, rfl⟩
    · exact .inr (.inr ⟨fault, hread, hmisplaced, hmisplaced.not_isOfCatalog⟩)
    · exact .inr (.inl ⟨issues, hread, hrefuses, _, _, rfl, rfl⟩)

/-- A datasource whose tables are left empty makes data fail without a report. -/
theorem misplaced_level :
    let data : Value := .object [("tables", .object [("1", .null)])]
    ofValue data = .error (.notIterable "NoneType") ∧
      ∀ fault operation status, ofValue data = .error fault →
        ¬ fault.IsOfCatalog operation status := by
  intro data
  have hread : ofValue data = .error (.notIterable "NoneType") := by rfl
  refine ⟨hread, fun fault operation status hfault => ?_⟩
  rintro ⟨report, cause, rfl, -⟩
  cases hread.symm.trans hfault

end Fixture

end SyncForm
