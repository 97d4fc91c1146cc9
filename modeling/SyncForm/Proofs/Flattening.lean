import SyncForm.Proofs.Nesting

/-!
# Flattening undoes nesting

An export nests the keys of a model one level, an import flattens objects to any depth. Where no key
goes through another one and no value is an object, an export writes out a table of values, all of
which an import takes over and nothing else (`Model.value?_ofMembers_exportAll`). So importing the
export of such a model gives its keys and values back, and a model of job parameters, which holds no
object, comes back whole: `Model.flatten_nest`. Which parts of a path were objects of the parameters
leaves no trace in the model.
-/

namespace SyncForm

/-! ## One level -/

/-- Objects stand at the top of parameters only: none of them holds another one. -/
def OneLevel (params : Assoc Value) : Prop :=
  ∀ name inner, (name, Value.object inner) ∈ params → ∀ below ∈ inner, below.2.isObject = false

/-- Placing a value that is no object nests nothing deeper. -/
theorem OneLevel.place {params : Assoc Value} {key : String} {value : Value}
    (h : OneLevel params) (hopen : Open params key) (hvalue : value.isObject = false) :
    OneLevel (place params key value) := by
  intro name inner hmem below hbelow
  cases hsplit : splitPath key with
  | none =>
    rw [place_of_plain hsplit] at hmem
    rcases Assoc.mem_put hmem with heq | hold
    · cases heq
      cases hvalue
    · exact h name inner hold below hbelow
  | some path =>
    obtain ⟨above, last⟩ := path
    obtain ⟨before, hbefore, hplace⟩ := place_of_split hopen hsplit value
    rw [hplace] at hmem
    rcases Assoc.mem_put hmem with heq | hold
    · cases heq
      rcases Assoc.mem_put hbelow with rfl | hkept
      · exact hvalue
      · rcases hbefore with hheld | ⟨-, rfl⟩
        · exact h _ before (Assoc.mem_of_valueOf? hheld) below hkept
        · exact absurd hkept List.not_mem_nil
    · exact h name inner hold below hbelow

/-- A table whose values are no objects is written out on one level. -/
theorem oneLevel_nestAll {g : String → Value} {keys : List String} (hkeys : Unmixed keys)
    (hvalues : ∀ key ∈ keys, (g key).isObject = false) : OneLevel (nestAll g keys) := by
  have hdone : ∀ done : List String, (∀ key ∈ done, key ∈ keys) → OneLevel (nestAll g done) := by
    intro done
    induction done using List.reverseRecOn with
    | nil => exact fun _ _ _ hmem => absurd hmem List.not_mem_nil
    | append_singleton done last ih =>
      intro hlisted
      have hlast : last ∈ keys := hlisted last (List.mem_append_right _ (.head _))
      have hearlier : ∀ key ∈ done, key ∈ keys := fun key hkey =>
        hlisted key (List.mem_append_left _ hkey)
      rw [nestAll_concat]
      exact (ih hearlier).place ((nestAll_spec hkeys hearlier).1 last hlast) (hvalues last hlast)
  exact hdone keys fun _ hkey => hkey

namespace Model

variable {m : Model}

/-- The value of a key that is listed. -/
theorem value?_of_mem_keys {key : String} (h : key ∈ m.keys) : m.value? key = some (m.get key) := by
  obtain ⟨value, hvalue⟩ := exists_value? ((Assoc.mem_keys_iff m.entries key).1 h)
  rw [get_of_value? hvalue, hvalue]

/-- A key with a value is listed. -/
theorem mem_keys_of_value? {key : String} {v : Value} (h : m.value? key = some v) :
    key ∈ m.keys := by
  refine (Assoc.mem_keys_iff m.entries key).2 ?_
  have hheld : (m.value? key).isSome = true := by rw [h]; rfl
  rwa [isSome_value?] at hheld

/-- Every entry of the model of parameters is a value of the user. -/
theorem find?_ofMembers_value? (params : Assoc Value) (key : String) :
    (ofMembers params).find? key =
      ((ofMembers params).value? key).map fun value => { value, source := .user } := by
  rw [find?_ofMembers, value?_ofMembers_eq]

/-- An export writes out the table of all values and leaves the model alone. -/
theorem exportAll_eq (hkeys : Unmixed m.keys) : m.exportAll = (nestAll m.get m.keys, m) :=
  exportKeys_eq (fun _ hkey => value?_of_mem_keys hkey) hkeys

/-- An export gives every key its value, a key with a dot one level down, and nests no deeper. -/
theorem nested_exportAll (hkeys : Unmixed m.keys)
    (hvalues : ∀ key v, m.value? key = some v → v.isObject = false) :
    (∀ key ∈ m.keys, given? m.exportAll.1 key = m.value? key) ∧ OneLevel m.exportAll.1 := by
  rw [exportAll_eq hkeys]
  refine ⟨fun key hkey => ?_, oneLevel_nestAll hkeys fun key hkey => ?_⟩
  · rw [given?_nestAll hkeys hkey, value?_of_mem_keys hkey]
  · exact hvalues key _ (value?_of_mem_keys hkey)

/-- Importing an export gives the values of the model back, and no others. -/
theorem value?_ofMembers_exportAll (hkeys : Unmixed m.keys)
    (hvalues : ∀ key v, m.value? key = some v → v.isObject = false) (key : String) :
    (ofMembers m.exportAll.1).value? key = m.value? key := by
  have hplain : ∀ key ∈ m.keys, (m.get key).isObject = false :=
    fun key hkey => hvalues key _ (value?_of_mem_keys hkey)
  rw [exportAll_eq hkeys]
  by_cases hkey : key ∈ m.keys
  · rw [value?_ofMembers_nestAll hkeys hplain hkey, value?_of_mem_keys hkey]
  · -- A value under another key would be a leaf of the table.
    have hforeign : (ofMembers (nestAll m.get m.keys)).value? key = none := by
      rw [Option.eq_none_iff_forall_ne_some]
      intro v hv
      have hleaf := (nestAll_spec hkeys fun _ h => h).2.2 hplain _ (mem_leaves_of_value? hv)
      exact hkey hleaf.1
    have hunheld : m.value? key = none := by
      rw [Option.eq_none_iff_forall_ne_some]
      exact fun v hv => hkey (mem_keys_of_value? hv)
    rw [hforeign, hunheld]

/-- The model of parameters holds no object. -/
theorem not_object_ofMembers (params : Assoc Value) :
    ∀ key v, (ofMembers params).value? key = some v → v.isObject = false :=
  fun _ _ hv => not_object_of_leavesOfMembers params "" (mem_leaves_of_value? hv)

/-- Flattening undoes nesting. Importing the export of a model gives exactly its keys and values
back, as values of the user, if none of its keys goes through another one or starts with a dot and
none of its values is an object. The export holds the value of a key without a dot under that key
and the value of any other key one level down, where its first dot cuts it; it nests no deeper.
Nested parameters of any depth whose paths are such keys give the same model again when it is
exported, on one level, and imported. -/
theorem flatten_nest :
    (∀ m : Model, Unmixed m.keys → (∀ key v, m.value? key = some v → v.isObject = false) →
      (∀ key, (ofMembers m.exportAll.1).find? key =
        (m.find? key).map fun e => { value := e.value, source := .user }) ∧
      (∀ key ∈ m.keys, given? m.exportAll.1 key = m.value? key) ∧ OneLevel m.exportAll.1) ∧
    ∀ params : Assoc Value, Unmixed (ofMembers params).keys →
      (∀ key, (ofMembers (ofMembers params).exportAll.1).find? key =
        (ofMembers params).find? key) ∧ OneLevel (ofMembers params).exportAll.1 := by
  refine ⟨fun m hkeys hvalues => ⟨fun key => ?_, nested_exportAll hkeys hvalues⟩,
    fun params hkeys => ⟨fun key => ?_, ?_⟩⟩
  · rw [find?_ofMembers_value?, value?_ofMembers_exportAll hkeys hvalues, value?, Option.map_map]
    rfl
  · rw [find?_ofMembers_value?, value?_ofMembers_exportAll hkeys (not_object_ofMembers params),
      ← find?_ofMembers_value?]
  · exact (nested_exportAll hkeys (not_object_ofMembers params)).2

/-- A model with a list of objects and with keys that have two dots in a row and one at the end. -/
def dottedModel : Model :=
  ⟨[("a..b", { value := .int 1 }),
    ("c", { value := .list [.object [("x.y", .null)]], source := .lookup }),
    ("a.", { value := .text "last", lookupError := some "lost" })]⟩

/-- Parameters three levels deep, with an empty object. -/
def deepParams : Assoc Value :=
  [("es_params", .object [("index", .object [("name", .text "orders"), ("settings", .object [])]),
    ("size", .null)]), ("where", .text "")]

/-- Both models come back, and keys with one first part are exported side by side. -/
theorem flatten_nest_dotted :
    Unmixed dottedModel.keys ∧ Unmixed (ofMembers deepParams).keys ∧
      (∀ key v, dottedModel.value? key = some v → v.isObject = false) ∧
      (ofMembers dottedModel.exportAll.1).find? "a.." = none ∧
      (ofMembers dottedModel.exportAll.1).find? "a." =
        some { value := .text "last", source := .user } ∧
      given? dottedModel.exportAll.1 "a..b" = some (.int 1) ∧ OneLevel dottedModel.exportAll.1 ∧
      (ofMembers (ofMembers deepParams).exportAll.1).find? "es_params.index.name" =
        some { value := .text "orders", source := .user } := by
  have hkeys : Unmixed dottedModel.keys := unmixed_of_all (by decide +kernel)
  have hparams : Unmixed (ofMembers deepParams).keys := unmixed_of_all (by decide +kernel)
  have hvalues : ∀ key v, dottedModel.value? key = some v → v.isObject = false := by
    intro key v hv
    obtain ⟨e, he, rfl⟩ := Option.map_eq_some_iff.1 hv
    have hentry := Assoc.mem_of_valueOf? he
    simp only [dottedModel, List.mem_cons, List.not_mem_nil, or_false, Prod.mk.injEq] at hentry
    rcases hentry with ⟨-, rfl⟩ | ⟨-, rfl⟩ | ⟨-, rfl⟩ <;> rfl
  obtain ⟨hback, hgiven, hlevel⟩ := flatten_nest.1 dottedModel hkeys hvalues
  refine ⟨hkeys, hparams, hvalues, ?_, ?_, ?_, hlevel, ?_⟩
  · rw [hback]
    rfl
  · rw [hback]
    rfl
  · rw [hgiven "a..b" (.head _)]
    rfl
  · rw [(flatten_nest.2 deepParams hparams).1]
    rfl

end Model

end SyncForm
