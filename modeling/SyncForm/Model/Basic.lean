import SyncForm.Text.Blank
import SyncForm.Value.Number

/-!
# The model of a form

A model holds one entry per key, in the order in which the keys were first written. An entry is a
value with its source — the default, the user or a lookup — and the errors shown beside it. Keys may
be paths: `Model.ofMembers` flattens nested job parameters, joining the names on the way by dots.

`Model.find?` is the view of a model; the lemmas `find?_write`, `find?_adjust`, `find?_clear` and
`find?_ensure` say what the operations do to it, and the `value?_…` lemmas what they do to the value
of a key.
-/

namespace SyncForm

/-- Where the value of a field comes from. -/
inductive Source where
  | default
  | user
  | lookup
  deriving DecidableEq

/-- The written name of a source. -/
def Source.name : Source → String
  | default => "default"
  | user => "local"
  | lookup => "lookup"

/-- A value with its source and the errors shown beside it. -/
structure Entry where
  value : Value
  source : Source := .default
  validationError : Option String := none
  lookupError : Option String := none

namespace Entry

/-- A value the user gives; it takes the mark of a failed lookup away. -/
def setUser (e : Entry) (value : Value) : Entry :=
  { e with value, source := .user, lookupError := none }

/-- A value a lookup brings. -/
def setLookup (e : Entry) (value : Value) : Entry :=
  { e with value, source := .lookup }

/-- One line on an entry: its key, its value and whether it is the default. -/
def line (key : String) (e : Entry) : String :=
  let mark := if e.source = .default then "(default)" else ""
  String.ofList
    (Text.trim Text.isBlank (key ++ "=" ++ e.value.quoted ++ " " ++ mark).toList)

end Entry

/-- One entry per key, in order. -/
structure Model where
  entries : Assoc Entry

namespace Model

/-- The empty model. -/
def empty : Model := ⟨[]⟩

/-- The entry of a key. -/
def find? (m : Model) (key : String) : Option Entry :=
  Assoc.valueOf? m.entries key

/-- The value of a key. -/
def value? (m : Model) (key : String) : Option Value :=
  (m.find? key).map (·.value)

/-- The value of a key, `null` where there is none. -/
def get (m : Model) (key : String) : Value :=
  (m.value? key).getD .null

/-- Whether a key is held. -/
def holds (m : Model) (key : String) : Bool :=
  Assoc.holds m.entries key

/-- The keys in order. -/
def keys (m : Model) : List String :=
  Assoc.keys m.entries

/-- Changes the entry of a held key. -/
def adjust (m : Model) (key : String) (f : Entry → Entry) : Model :=
  ⟨Assoc.adjust m.entries key f⟩

/-- Changes the entry of a key, a new one with a value of its own if it is not held. -/
def write (m : Model) (key : String) (f : Entry → Entry) : Model :=
  ⟨Assoc.put m.entries key (f ((m.find? key).getD { value := .text "" }))⟩

/-- Seeds a key with a default unless it is held. -/
def ensure (m : Model) (key : String) (value : Value) : Model :=
  if m.holds key then m else ⟨Assoc.put m.entries key { value }⟩

/-- Gives a key a value of the user. -/
def setUser (m : Model) (key : String) (value : Value) : Model :=
  m.write key (·.setUser value)

/-- Gives a key a value of a lookup. -/
def setLookup (m : Model) (key : String) (value : Value) : Model :=
  m.write key (·.setLookup value)

/-- Resets a key to a default, without errors. -/
def clear (m : Model) (key : String) (value : Value) : Model :=
  ⟨Assoc.put m.entries key { value }⟩

/-- Marks the value of a held key as the user's. -/
def touch (m : Model) (key : String) : Model :=
  m.adjust key fun e => { e with source := .user }

/-- Replaces the value of a held key, leaving its source and errors. -/
def replace (m : Model) (key : String) (value : Value) : Model :=
  m.adjust key fun e => { e with value }

/-- The keys and their values. -/
def snapshot (m : Model) : Assoc Value :=
  m.entries.map fun (key, e) => (key, e.value)

/-- Writing a key changes its entry and no other one. -/
theorem find?_write (m : Model) (key : String) (f : Entry → Entry) (other : String) :
    (m.write key f).find? other =
      if key = other then some (f ((m.find? key).getD { value := .text "" }))
      else m.find? other :=
  Assoc.valueOf?_put ..

/-- Changing the entry of a key touches no other one, and none where the key is not held. -/
theorem find?_adjust (m : Model) (key : String) (f : Entry → Entry) (other : String) :
    (m.adjust key f).find? other =
      if key = other then (m.find? other).map f else m.find? other :=
  Assoc.valueOf?_adjust ..

/-- Resetting a key leaves it without errors and touches no other one. -/
theorem find?_clear (m : Model) (key : String) (value : Value) (other : String) :
    (m.clear key value).find? other = if key = other then some { value } else m.find? other :=
  Assoc.valueOf?_put ..

/-- Seeding a key touches no entry that is there already. -/
theorem find?_ensure (m : Model) (key : String) (value : Value) (other : String) :
    (m.ensure key value).find? other =
      if key = other then some ((m.find? other).getD { value }) else m.find? other := by
  by_cases hheld : m.holds key = true
  · obtain ⟨e, he⟩ := Option.isSome_iff_exists.1 hheld
    have he : m.find? key = some e := he
    by_cases hkey : key = other
    · subst hkey
      simp [ensure, hheld, he]
    · simp [ensure, hheld, hkey]
  · have hnone : m.find? key = none := Option.not_isSome_iff_eq_none.1 hheld
    have hput : (m.ensure key value).find? other =
        if key = other then some { value } else m.find? other := by
      simp only [ensure, hheld, Bool.false_eq_true, if_false]
      exact Assoc.valueOf?_put ..
    by_cases hkey : key = other
    · subst hkey
      simp [hput, hnone]
    · simp [hput, hkey]

/-- Replacing a value changes the entry of its key and no other one. -/
theorem find?_replace (m : Model) (key : String) (value : Value) (other : String) :
    (m.replace key value).find? other =
      if key = other then (m.find? other).map fun e => { e with value } else m.find? other :=
  m.find?_adjust ..

/-! ## Values -/

section

variable {m m' : Model} {key key' : String} {value : Value}

/-- An entry shows its value. -/
theorem value?_of_find? {e : Entry} (h : m.find? key = some e) : m.value? key = some e.value :=
  congrArg (Option.map Entry.value) h

/-- Where the entries are the same the values are. -/
theorem value?_congr (h : m'.find? key' = m.find? key) : m'.value? key' = m.value? key :=
  congrArg (Option.map Entry.value) h

/-- The value of a key that has one. -/
theorem get_of_value? (h : m.value? key = some value) : m.get key = value :=
  congrArg (Option.getD · Value.null) h

/-- Where the values are the same, what is read is. -/
theorem get_congr (h : m'.value? key' = m.value? key) : m'.get key' = m.get key :=
  congrArg (Option.getD · Value.null) h

end

/-- A key is held just if it has a value. -/
@[simp] theorem isSome_value? (m : Model) (key : String) : (m.value? key).isSome = m.holds key :=
  Option.isSome_map

/-- A key that is held has a value. -/
theorem exists_value? {m : Model} {key : String} (h : m.holds key = true) :
    ∃ value, m.value? key = some value :=
  Option.isSome_iff_exists.1 ((m.isSome_value? key).trans h)

/-- Changing an entry keeps a value unless it is that of the entry. -/
theorem value?_adjust_cases (m : Model) (key : String) (f : Entry → Entry) (other : String) :
    (m.adjust key f).value? other = m.value? other ∨
      ∃ e, m.find? other = some e ∧ (m.adjust key f).value? other = some (f e).value := by
  rw [value?, value?, find?_adjust]
  split
  · cases m.find? other with
    | none => exact .inl rfl
    | some e => exact .inr ⟨e, rfl, rfl⟩
  · exact .inl rfl

/-- Changing an entry keeps every value if it keeps its own. -/
theorem value?_adjust (m : Model) (key : String) (f : Entry → Entry)
    (hf : ∀ e, (f e).value = e.value) (other : String) :
    (m.adjust key f).value? other = m.value? other := by
  rcases m.value?_adjust_cases key f other with hsame | ⟨e, he, hvalue⟩
  · exact hsame
  · rw [hvalue, hf, value?_of_find? he]

/-- Marking a value as the user's keeps every value. -/
theorem value?_touch (m : Model) (key other : String) :
    (m.touch key).value? other = m.value? other :=
  m.value?_adjust key (fun e => { e with source := .user }) (fun _ => rfl) other

/-- Replacing a value changes that of its key and no other one. -/
theorem value?_replace (m : Model) (key : String) (value : Value) (other : String) :
    (m.replace key value).value? other =
      if key = other then (m.value? other).map fun _ => value else m.value? other := by
  simp only [value?, find?_replace]
  split
  · simp [Function.comp_def]
  · rfl

/-- A default shows under its key alone. -/
theorem value?_clear (m : Model) (key : String) (value : Value) (other : String) :
    (m.clear key value).value? other = if key = other then some value else m.value? other := by
  simp only [value?, find?_clear]
  split <;> rfl

/-- Seeding a key with a value fills it in where nothing is held and touches no other key. -/
theorem value?_ensure (m : Model) (key : String) (value : Value) (other : String) :
    (m.ensure key value).value? other =
      if key = other then some ((m.value? other).getD value) else m.value? other := by
  simp only [value?, find?_ensure]
  split
  · cases m.find? other <;> rfl
  · rfl

/-- A value of the user shows under its key alone. -/
theorem value?_setUser (m : Model) (key : String) (value : Value) (other : String) :
    (m.setUser key value).value? other = if key = other then some value else m.value? other := by
  simp only [value?, setUser, find?_write]
  split <;> simp [Entry.setUser]

/-- A value of a lookup shows under its key alone. -/
theorem value?_setLookup (m : Model) (key : String) (value : Value) (other : String) :
    (m.setLookup key value).value? other = if key = other then some value else m.value? other := by
  simp only [value?, setLookup, find?_write]
  split <;> simp [Entry.setLookup]

end Model

/-- The path of a member below another one; the empty path adds nothing. -/
def joinPath (above name : String) : String :=
  if above.isEmpty then name else above ++ "." ++ name

mutual

/-- The values below a path, each with its own path, in order. -/
def Value.leaves (path : String) : Value → List (String × Value)
  | .object members => leavesOfMembers path members
  | v => [(path, v)]

/-- The values below the members of an object. -/
def leavesOfMembers (path : String) : List (String × Value) → List (String × Value)
  | [] => []
  | (name, value) :: rest => value.leaves (joinPath path name) ++ leavesOfMembers path rest

end

namespace Model

/-- The model of nested job parameters, every value given by the user. Where two paths coincide the
later value stands at the earlier place. -/
def ofMembers (members : Assoc Value) : Model :=
  ⟨(Assoc.putAll [] (leavesOfMembers "" members)).map fun (key, value) =>
    (key, { value, source := .user })⟩

/-- The model of job parameters given as a value. -/
def ofValue (v : Value) : Except Fault Model :=
  v.toMembersOf.map ofMembers

end Model

end SyncForm
