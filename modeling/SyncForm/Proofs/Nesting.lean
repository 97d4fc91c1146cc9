import Mathlib.Data.List.Basic
import Mathlib.Data.List.Induction
import Mathlib.Data.List.Nodup
import SyncForm.Model.Export
import SyncForm.Proofs.Effect

/-!
# Flattening and nesting of parameters

Job parameters are flattened to any depth when they are imported (`leavesOfMembers`), and an export
nests its keys one level. `given?` reads parameters in the shape of an export. A value that is no
object and is read so stands among the leaves (`mem_leaves_of_given`), and the last leaf of a path is
the one that a model takes over (`Model.value?_ofMembers`): a leaf may be overridden by a later one
that spells the same path.

An export that no exported key goes through writes out a table of values and leaves the model alone
(`Model.exportKeys_eq`). Such a table, `nestAll`, gives every key its value (`given?_nestAll`), and
where none of the values is an object its model takes all of them over
(`Model.value?_ofMembers_nestAll`); this is where both directions meet.
-/

namespace SyncForm

/-- Whether a value is an object, which an import flattens. -/
def Value.isObject : Value → Bool
  | object _ => true
  | _ => false

/-- The value that parameters give a key: a key with a dot is read one level down. -/
def given? (params : Assoc Value) (key : String) : Option Value :=
  match splitPath key with
  | none => Assoc.valueOf? params key
  | some (above, name) => (Assoc.valueOf? params above).bind (·.member? name)

/-! ## Keyed lists -/

namespace Assoc

variable {α : Type} {a : Assoc α} {key : String} {value : α}

/-- What a key holds is in the list. -/
theorem mem_of_valueOf? (h : valueOf? a key = some value) : (key, value) ∈ a := by
  induction a with
  | nil => cases h
  | cons kv rest ih =>
    obtain ⟨k, v⟩ := kv
    unfold valueOf? at h
    split at h
    · next hkey =>
      subst hkey
      cases h
      exact .head _
    · exact .tail _ (ih h)

/-- A key that is not listed holds nothing. -/
theorem valueOf?_eq_none (h : key ∉ keys a) : valueOf? a key = none :=
  Option.not_isSome_iff_eq_none.1 fun hheld => h ((mem_keys_iff a key).2 hheld)

/-- A key that occurs in a list holds something that stands beside it. -/
theorem exists_valueOf? (h : (key, value) ∈ a) : ∃ w, valueOf? a key = some w ∧ (key, w) ∈ a := by
  have hheld : holds a key = true := (mem_keys_iff a key).1 (List.mem_map.2 ⟨_, h, rfl⟩)
  obtain ⟨w, hw⟩ := Option.isSome_iff_exists.1 hheld
  exact ⟨w, hw, mem_of_valueOf? hw⟩

/-- Writing a key adds that key with its value only. -/
theorem mem_put {kv : String × α} (h : kv ∈ put a key value) : kv = (key, value) ∨ kv ∈ a := by
  induction a with
  | nil => exact .inl (List.mem_singleton.1 h)
  | cons first rest ih =>
    obtain ⟨k, v⟩ := first
    unfold put at h
    split at h
    · next hkey =>
      subst hkey
      rcases List.mem_cons.1 h with rfl | hrest
      · exact .inl rfl
      · exact .inr (.tail _ hrest)
    · rcases List.mem_cons.1 h with rfl | hrest
      · exact .inr (.head _)
      · exact (ih hrest).imp_right fun hmem => .tail _ hmem

/-- Writing one key twice is writing it once. -/
theorem put_put_self (a : Assoc α) (key : String) (value value' : α) :
    put (put a key value) key value' = put a key value' := by
  induction a with
  | nil => simp [put]
  | cons first rest ih =>
    obtain ⟨k, v⟩ := first
    by_cases hkey : k = key
    · simp [put, hkey]
    · simp [put, hkey, ih]

/-- A key that is held may be written before or after another one. -/
theorem put_put_comm (h : holds a key = true) {other : String} (hne : other ≠ key) (value' : α) :
    put (put a other value') key value = put (put a key value) other value' := by
  induction a with
  | nil => cases h
  | cons first rest ih =>
    obtain ⟨k, v⟩ := first
    by_cases hkey : k = key
    · subst hkey
      simp [put, hne.symm]
    · have hrest : holds rest key = true := by simpa [holds, valueOf?, hkey] using h
      by_cases hother : k = other
      · subst hother
        simp [put, hkey]
      · simp [put, hkey, hother, ih hrest]

/-- Writing several keys leaves what another key holds. -/
theorem valueOf?_putAll (a : Assoc α) {b : Assoc α} (hb : ∀ w, (key, w) ∉ b) :
    valueOf? (putAll a b) key = valueOf? a key := by
  induction b generalizing a with
  | nil => rfl
  | cons kv rest ih =>
    refine (ih (put a kv.1 kv.2) fun w hw => hb w (.tail _ hw)).trans ?_
    rw [valueOf?_put, if_neg]
    rintro rfl
    exact hb kv.2 (.head _)

/-- A key that occurs in a list occurs in it for the last time. -/
theorem exists_last (h : (key, value) ∈ a) :
    ∃ before after last, a = before ++ (key, last) :: after ∧ ∀ w, (key, w) ∉ after := by
  induction a generalizing value with
  | nil => exact absurd h List.not_mem_nil
  | cons first rest ih =>
    by_cases hrest : ∃ w, (key, w) ∈ rest
    · obtain ⟨w, hw⟩ := hrest
      obtain ⟨before, after, last, rfl, hlast⟩ := ih hw
      exact ⟨first :: before, after, last, rfl, hlast⟩
    · rcases List.mem_cons.1 h with rfl | hmem
      · exact ⟨[], rest, value, rfl, not_exists.1 hrest⟩
      · exact absurd ⟨value, hmem⟩ hrest

end Assoc

/-! ## Paths -/

/-- A key that is cut at a dot is joined by one. -/
theorem splitPath_eq_some {key above name : String} (h : splitPath key = some (above, name)) :
    key = above ++ "." ++ name := by
  unfold splitPath at h
  dsimp only at h
  split at h
  · cases h
  · next c rest hdrop =>
    have hdot : c = '.' := by
      have hhead := List.head?_dropWhile_not (· != '.') key.toList
      rw [hdrop] at hhead
      simpa using hhead
    obtain ⟨rfl, rfl⟩ : String.ofList (key.toList.takeWhile (· != '.')) = above ∧
        String.ofList rest = name := by simpa using h
    rw [← String.toList_inj, String.toList_append, String.toList_append, String.toList_ofList,
      String.toList_ofList]
    have hcut := List.takeWhile_append_dropWhile (p := (· != '.')) (l := key.toList)
    rw [hdrop, hdot] at hcut
    refine hcut.symm.trans ?_
    simp

/-- A key that is cut is joined again, unless it is cut at its start. -/
theorem joinPath_splitPath {key above name : String} (h : splitPath key = some (above, name))
    (hroot : above.isEmpty = false) : joinPath (joinPath "" above) name = key := by
  have habove : joinPath "" above = above := rfl
  rw [habove, splitPath_eq_some h, joinPath, if_neg (Bool.eq_false_iff.1 hroot)]

/-! ## Flattening -/

/-- A value that is no object is the only leaf below its path. -/
theorem Value.leaves_of_not_object {v : Value} (h : v.isObject = false) (path : String) :
    v.leaves path = [(path, v)] := by
  cases v with
  | object members => cases h
  | _ => rfl

/-- The leaves below an object are those below its members. -/
theorem mem_leavesOfMembers {path : String} {members : Assoc Value} {leaf : String × Value} :
    leaf ∈ leavesOfMembers path members ↔
      ∃ name v, (name, v) ∈ members ∧ leaf ∈ Value.leaves (joinPath path name) v := by
  induction members with
  | nil =>
    refine iff_of_false List.not_mem_nil ?_
    rintro ⟨name, v, hmem, -⟩
    exact absurd hmem List.not_mem_nil
  | cons nv rest ih =>
    obtain ⟨name, v⟩ := nv
    have hsplit : leavesOfMembers path ((name, v) :: rest) =
        Value.leaves (joinPath path name) v ++ leavesOfMembers path rest := rfl
    rw [hsplit, List.mem_append, ih]
    constructor
    · rintro (hhere | ⟨name', v', hmem, hleaf⟩)
      · exact ⟨name, v, .head _, hhere⟩
      · exact ⟨name', v', .tail _ hmem, hleaf⟩
    · rintro ⟨name', v', hmem, hleaf⟩
      rcases List.mem_cons.1 hmem with heq | hmem
      · cases heq
        exact .inl hleaf
      · exact .inr ⟨name', v', hmem, hleaf⟩

mutual

/-- No leaf is an object. -/
theorem Value.not_object_of_leaves {leaf : String × Value} : ∀ (v : Value) (path : String),
    leaf ∈ v.leaves path → leaf.2.isObject = false
  | .object members, path, h => not_object_of_leavesOfMembers members path h
  | .null, _, h | .bool _, _, h | .int _, _, h | .float _, _, h | .text _, _, h | .list _, _, h
  | .column _, _, h => by
    rw [List.mem_singleton.1 h]
    rfl

/-- No leaf below members is an object. -/
theorem not_object_of_leavesOfMembers {leaf : String × Value} :
    ∀ (members : List (String × Value)) (path : String),
      leaf ∈ leavesOfMembers path members → leaf.2.isObject = false
  | [], _, h => absurd h List.not_mem_nil
  | (name, v) :: rest, path, h => by
    rcases List.mem_append.1 h with hhere | hrest
    · exact Value.not_object_of_leaves v (joinPath path name) hhere
    · exact not_object_of_leavesOfMembers rest path hrest

end

variable {params : Assoc Value} {key : String} {v : Value}

/-- A value that is no object and is given to a key is among the leaves. -/
theorem mem_leaves_of_given (h : given? params key = some v) (hv : v.isObject = false)
    (hroot : ∀ above name, splitPath key = some (above, name) → above.isEmpty = false) :
    (key, v) ∈ leavesOfMembers "" params := by
  unfold given? at h
  rw [mem_leavesOfMembers]
  split at h
  · refine ⟨key, v, Assoc.mem_of_valueOf? h, ?_⟩
    rw [Value.leaves_of_not_object hv]
    exact List.mem_singleton.2 rfl
  · next above name hsplit =>
    obtain ⟨w, hw, hmember⟩ := Option.bind_eq_some_iff.1 h
    cases w with
    | object inner =>
      refine ⟨above, _, Assoc.mem_of_valueOf? hw, mem_leavesOfMembers.2 ⟨name, v,
        Assoc.mem_of_valueOf? hmember, ?_⟩⟩
      rw [Value.leaves_of_not_object hv, joinPath_splitPath hsplit (hroot above name hsplit)]
      exact List.mem_singleton.2 rfl
    | _ => cases hmember

/-- The value that a path is given by the last leaf that spells it. -/
def LastLeaf (params : Assoc Value) (key : String) (v : Value) : Prop :=
  ∃ before after, leavesOfMembers "" params = before ++ (key, v) :: after ∧ ∀ w, (key, w) ∉ after

/-- A later leaf of the same path gives another value than the one that is looked at. -/
def Overridden (params : Assoc Value) (key : String) (v : Value) : Prop :=
  ∃ before after w, leavesOfMembers "" params = before ++ (key, w) :: after ∧ w ≠ v ∧
    (key, v) ∉ after

/-- A leaf that is not overridden has the value of the last one. -/
theorem lastLeaf_of_not_overridden (h : (key, v) ∈ leavesOfMembers "" params)
    (hnot : ¬ Overridden params key v) : LastLeaf params key v := by
  obtain ⟨before, after, w, hsplit, hlast⟩ := Assoc.exists_last h
  by_cases hw : w = v
  · exact ⟨before, after, hw ▸ hsplit, hlast⟩
  · exact absurd ⟨before, after, w, hsplit, hw, hlast v⟩ hnot

/-- Where all leaves of a path have one value, none is overridden. -/
theorem not_overridden_of_unique (h : ∀ w, (key, w) ∈ leavesOfMembers "" params → w = v) :
    ¬ Overridden params key v := by
  rintro ⟨before, after, w, hsplit, hne, -⟩
  refine hne (h w ?_)
  rw [hsplit]
  exact List.mem_append_right _ (.head _)

/-- Where no path is spelled twice, no leaf is overridden. -/
theorem not_overridden_of_nodup (h : (key, v) ∈ leavesOfMembers "" params)
    (hpaths : ((leavesOfMembers "" params).map (·.1)).Nodup) : ¬ Overridden params key v :=
  not_overridden_of_unique fun _ hw =>
    congrArg Prod.snd (List.inj_on_of_nodup_map hpaths hw h rfl)

/-- The model of parameters holds what their leaves give, as values of the user. -/
theorem Model.find?_ofMembers (params : Assoc Value) (key : String) :
    (ofMembers params).find? key =
      (Assoc.valueOf? (Assoc.putAll [] (leavesOfMembers "" params)) key).map
        fun value => { value, source := .user } :=
  Assoc.valueOf?_map (Assoc.putAll [] (leavesOfMembers "" params))
    (fun _ value => ({ value, source := .user } : Entry)) key

/-- The values that the model of parameters holds are those that their leaves give. -/
theorem Model.value?_ofMembers_eq (params : Assoc Value) (key : String) :
    (ofMembers params).value? key =
      Assoc.valueOf? (Assoc.putAll [] (leavesOfMembers "" params)) key := by
  rw [value?, find?_ofMembers, Option.map_map]
  exact Option.map_id'

/-- The model of parameters takes the last leaf of a path over. -/
theorem Model.value?_ofMembers (h : LastLeaf params key v) :
    (ofMembers params).value? key = some v := by
  obtain ⟨before, after, hsplit, hlast⟩ := h
  rw [value?_ofMembers_eq, hsplit, Assoc.putAll, List.foldl_append, List.foldl_cons]
  refine (Assoc.valueOf?_putAll _ hlast).trans ?_
  rw [Assoc.valueOf?_put, if_pos rfl]

/-- What the model of parameters holds is a leaf of them. -/
theorem Model.mem_leaves_of_value? (h : (ofMembers params).value? key = some v) :
    (key, v) ∈ leavesOfMembers "" params := by
  by_cases hleaf : ∃ w, (key, w) ∈ leavesOfMembers "" params
  · obtain ⟨w, hw⟩ := hleaf
    obtain ⟨before, after, last, hsplit, hlast⟩ := Assoc.exists_last hw
    rw [value?_ofMembers ⟨before, after, hsplit, hlast⟩] at h
    cases h
    rw [hsplit]
    exact List.mem_append_right _ (.head _)
  · rw [value?_ofMembers_eq, Assoc.valueOf?_putAll [] (not_exists.1 hleaf)] at h
    cases h

/-! ## Nesting -/

/-- Writes the value of a key into nested parameters, one level down where the key has a dot. -/
def place (params : Assoc Value) (key : String) (value : Value) : Assoc Value :=
  match splitPath key with
  | none => Assoc.put params key value
  | some (above, name) =>
    match (Assoc.valueOf? params above).getD (.object []) with
    | .object inner => Assoc.put params above (.object (Assoc.put inner name value))
    | _ => params

/-- A table of values of some keys, written out as nested parameters. -/
def nestAll (g : String → Value) (keys : List String) : Assoc Value :=
  keys.foldl (fun params key => place params key (g key)) []

/-- No key of a list goes through another one, and none through the empty name. -/
def Unmixed (keys : List String) : Prop :=
  ∀ key ∈ keys, ∀ above name, splitPath key = some (above, name) →
    above ∉ keys ∧ above.isEmpty = false

/-- Whether a list of keys is unmixed can be checked key by key. -/
theorem unmixed_of_all {keys : List String} (h : keys.all (fun key => (splitPath key).all fun path =>
    !keys.contains path.1 && !path.1.isEmpty) = true) : Unmixed keys := by
  intro key hkey above name hsplit
  have hpath := List.all_eq_true.1 h key hkey
  rw [hsplit, Option.all_some, Bool.and_eq_true, Bool.not_eq_true', Bool.not_eq_true'] at hpath
  refine ⟨fun hmem => ?_, hpath.2⟩
  rw [List.contains_iff_mem.2 hmem] at hpath
  exact absurd hpath.1 Bool.noConfusion

/-- Exporting a held key that goes through no key written before places its value and leaves the
model alone. -/
theorem Export.step_place {x : Export} {key : String} {value : Value}
    (hvalue : x.model.value? key = some value)
    (hforeign : ∀ above name, splitPath key = some (above, name) → above ∉ x.own) :
    (x.step key).members = place x.members key value ∧ (x.step key).model = x.model ∧
      ∀ other ∈ (x.step key).own, other = key ∨ other ∈ x.own := by
  unfold step place
  rw [hvalue]
  dsimp only
  cases hsplit : splitPath key with
  | none =>
    refine ⟨rfl, rfl, fun other hother => ?_⟩
    exact List.mem_cons.1 hother
  | some path =>
    obtain ⟨above, name⟩ := path
    have hnot : x.own.contains above = false := by
      simpa using hforeign above name hsplit
    dsimp only
    unfold nest
    cases (Assoc.valueOf? x.members above).getD (.object []) with
    | object inner =>
      dsimp only
      rw [hnot]
      exact ⟨rfl, rfl, fun other hother => .inr hother⟩
    | _ => exact ⟨rfl, rfl, fun other hother => .inr hother⟩

/-- Where no exported key goes through another one and all are held, an export writes out their
values and leaves the model alone. -/
theorem Model.exportKeys_eq {m : Model} {g : String → Value} {keys : List String}
    (hheld : ∀ key ∈ keys, m.value? key = some (g key)) (hkeys : Unmixed keys) :
    m.exportKeys keys = (nestAll g keys, m) := by
  have hfold : ∀ (rest : List String) (x : Export), (∀ key ∈ rest, key ∈ keys) → x.model = m →
      (∀ key ∈ x.own, key ∈ keys) →
      (rest.foldl Export.step x).members =
          rest.foldl (fun params key => place params key (g key)) x.members ∧
        (rest.foldl Export.step x).model = m := by
    intro rest
    induction rest with
    | nil => exact fun x _ hmodel _ => ⟨rfl, hmodel⟩
    | cons key rest ih =>
      intro x hrest hmodel hown
      have hkey : key ∈ keys := hrest key (.head _)
      have hvalue : x.model.value? key = some (g key) := hmodel ▸ hheld key hkey
      obtain ⟨hmembers, hsame, hnew⟩ := x.step_place hvalue fun above name hsplit habove =>
        (hkeys key hkey above name hsplit).1 (hown above habove)
      rw [List.foldl_cons, List.foldl_cons, ← hmembers]
      refine ih (x.step key) (fun other hother => hrest other (.tail _ hother))
        (hsame.trans hmodel) fun other hother => ?_
      rcases hnew other hother with rfl | hold
      · exact hkey
      · exact hown other hold
  obtain ⟨hmembers, hmodel⟩ := hfold keys { model := m, members := [], own := [] }
    (fun _ hkey => hkey) rfl (fun _ hkey => absurd hkey List.not_mem_nil)
  exact Prod.ext hmembers hmodel

/-! ## What nested parameters give -/

/-- What is found under the first name of a path, if anything, is an object. -/
def Open (params : Assoc Value) (key : String) : Prop :=
  ∀ above name, splitPath key = some (above, name) → Assoc.valueOf? params above = none ∨
    ∃ inner, Assoc.valueOf? params above = some (.object inner)

/-- Placing a value below an open path writes it into the object at the path, which may be new. -/
theorem place_of_split {params : Assoc Value} {key above name : String} (hopen : Open params key)
    (hsplit : splitPath key = some (above, name)) (value : Value) :
    ∃ inner, (Assoc.valueOf? params above = some (.object inner) ∨
        (Assoc.valueOf? params above = none ∧ inner = [])) ∧
      place params key value = Assoc.put params above (.object (Assoc.put inner name value)) := by
  unfold place
  rw [hsplit]
  rcases hopen above name hsplit with hnone | ⟨inner, hinner⟩
  · refine ⟨[], .inr ⟨hnone, rfl⟩, ?_⟩
    dsimp only
    rw [hnone]
    rfl
  · refine ⟨inner, .inl hinner, ?_⟩
    dsimp only
    rw [hinner]
    rfl

/-- Placing the value of a key without a dot writes it at top level. -/
theorem place_of_plain {key : String} (hsplit : splitPath key = none) (params : Assoc Value)
    (value : Value) : place params key value = Assoc.put params key value := by
  unfold place
  rw [hsplit]

section

variable {params : Assoc Value} {key other : String} {value : Value}

/-- Writing a member into the object under a name, which may be new, shows under that path alone. -/
theorem member?_put_object {above name : String} {inner : Assoc Value}
    (hinner : Assoc.valueOf? params above = some (.object inner) ∨
      (Assoc.valueOf? params above = none ∧ inner = []))
    (value : Value) (above' name' : String) :
    (Assoc.valueOf? (Assoc.put params above (.object (Assoc.put inner name value))) above').bind
        (·.member? name') =
      if above = above' ∧ name = name' then some value
      else (Assoc.valueOf? params above').bind (·.member? name') := by
  rw [Assoc.valueOf?_put]
  by_cases habove : above = above'
  · subst habove
    have hmember : (Value.object (Assoc.put inner name value)).member? name' =
        if name = name' then some value else Assoc.valueOf? inner name' :=
      Assoc.valueOf?_put ..
    have hbefore : (Assoc.valueOf? params above).bind (·.member? name') =
        Assoc.valueOf? inner name' := by
      rcases hinner with hheld | ⟨hnone, rfl⟩
      · rw [hheld]
        rfl
      · rw [hnone]
        rfl
    rw [if_pos rfl, Option.bind_some, hmember, hbefore]
    simp only [true_and]
  · rw [if_neg habove, if_neg fun h => habove h.1]

/-- Placing a value gives it to its key and leaves what the other keys are given. -/
theorem given?_place (hopen : Open params key)
    (hkey : ∀ above name, splitPath key = some (above, name) → above ≠ other)
    (hother : ∀ above name, splitPath other = some (above, name) → above ≠ key) :
    given? (place params key value) other =
      if key = other then some value else given? params other := by
  unfold given?
  cases hsplit : splitPath key with
  | none =>
    rw [place_of_plain hsplit]
    cases hsplit' : splitPath other with
    | none => exact Assoc.valueOf?_put ..
    | some path =>
      obtain ⟨above, name⟩ := path
      have hne : key ≠ other := fun heq => by simp [heq, hsplit'] at hsplit
      dsimp only
      rw [Assoc.valueOf?_put, if_neg (hother above name hsplit').symm, if_neg hne]
  | some path =>
    obtain ⟨above, name⟩ := path
    obtain ⟨inner, hinner, hplace⟩ := place_of_split hopen hsplit value
    rw [hplace]
    cases hsplit' : splitPath other with
    | none =>
      have hne : key ≠ other := fun heq => by simp [heq, hsplit'] at hsplit
      dsimp only
      rw [Assoc.valueOf?_put, if_neg (hkey above name hsplit), if_neg hne]
    | some path' =>
      obtain ⟨above', name'⟩ := path'
      have hsame : above = above' ∧ name = name' ↔ key = other := by
        constructor
        · rintro ⟨rfl, rfl⟩
          rw [splitPath_eq_some hsplit, splitPath_eq_some hsplit']
        · rintro rfl
          exact Prod.mk.inj (Option.some.inj (hsplit.symm.trans hsplit'))
      refine (member?_put_object hinner value above' name').trans ?_
      simp only [hsame]

/-- Placing a value leaves the paths open that go through no key of its own. -/
theorem Open.place (hopen : Open params key) (hother : Open params other)
    (hroot : ∀ above name, splitPath other = some (above, name) → above ≠ key) :
    Open (place params key value) other := by
  intro above name hsplit
  cases hsplit' : splitPath key with
  | none =>
    rw [place_of_plain hsplit', Assoc.valueOf?_put, if_neg (hroot above name hsplit).symm]
    exact hother above name hsplit
  | some path =>
    obtain ⟨above', name'⟩ := path
    obtain ⟨inner, -, hplace⟩ := place_of_split hopen hsplit' value
    rw [hplace, Assoc.valueOf?_put]
    split
    · exact .inr ⟨_, rfl⟩
    · exact hother above name hsplit

/-- The leaves after placing a value that is no object are those before and the value itself. -/
theorem leaves_place (hopen : Open params key) (hvalue : value.isObject = false)
    (hroot : ∀ above name, splitPath key = some (above, name) → above.isEmpty = false)
    {leaf : String × Value} (h : leaf ∈ leavesOfMembers "" (SyncForm.place params key value)) :
    leaf = (key, value) ∨ leaf ∈ leavesOfMembers "" params := by
  cases hsplit : splitPath key with
  | none =>
    rw [place_of_plain hsplit] at h
    obtain ⟨name, w, hmem, hleaf⟩ := mem_leavesOfMembers.1 h
    rcases Assoc.mem_put hmem with heq | hold
    · cases heq
      rw [Value.leaves_of_not_object hvalue] at hleaf
      exact .inl (List.mem_singleton.1 hleaf)
    · exact .inr (mem_leavesOfMembers.2 ⟨name, w, hold, hleaf⟩)
  | some path =>
    obtain ⟨above, name⟩ := path
    obtain ⟨inner, hinner, hplace⟩ := place_of_split hopen hsplit value
    rw [hplace] at h
    obtain ⟨name', w, hmem, hleaf⟩ := mem_leavesOfMembers.1 h
    rcases Assoc.mem_put hmem with heq | hold
    · cases heq
      obtain ⟨name', w, hmem, hleaf⟩ := mem_leavesOfMembers.1 hleaf
      rcases Assoc.mem_put hmem with heq | hold
      · cases heq
        rw [Value.leaves_of_not_object hvalue,
          joinPath_splitPath hsplit (hroot above name hsplit)] at hleaf
        exact .inl (List.mem_singleton.1 hleaf)
      · rcases hinner with hheld | ⟨-, rfl⟩
        · exact .inr (mem_leavesOfMembers.2 ⟨above, _, Assoc.mem_of_valueOf? hheld,
            mem_leavesOfMembers.2 ⟨name', w, hold, hleaf⟩⟩)
        · exact absurd hold List.not_mem_nil
    · exact .inr (mem_leavesOfMembers.2 ⟨name', w, hold, hleaf⟩)

end

variable {g : String → Value} {keys : List String}

/-- Of the keys of a table all but the last are written out first. -/
theorem nestAll_concat (g : String → Value) (done : List String) (key : String) :
    nestAll g (done ++ [key]) = place (nestAll g done) key (g key) := by
  rw [nestAll, List.foldl_append]
  rfl

/-- A table that is written out depends on the values of its keys alone. -/
theorem nestAll_congr {g g' : String → Value} {keys : List String}
    (h : ∀ key ∈ keys, g key = g' key) : nestAll g keys = nestAll g' keys := by
  refine List.foldl_ext _ _ _ fun params key hkey => ?_
  rw [h key hkey]

/-- Writing out some keys of a table leaves the paths of all its keys open and gives those keys their
values; where no value is an object, all leaves are keys with their values. -/
theorem nestAll_spec (hkeys : Unmixed keys) {done : List String} (hdone : ∀ key ∈ done, key ∈ keys) :
    (∀ key ∈ keys, Open (nestAll g done) key) ∧
      (∀ key ∈ done, given? (nestAll g done) key = some (g key)) ∧
      ((∀ key ∈ keys, (g key).isObject = false) →
        ∀ leaf ∈ leavesOfMembers "" (nestAll g done), leaf.1 ∈ keys ∧ leaf.2 = g leaf.1) := by
  have hapart : ∀ key ∈ keys, ∀ other ∈ keys, ∀ above name,
      splitPath key = some (above, name) → above ≠ other := by
    rintro key hkey other hother above name hsplit rfl
    exact (hkeys key hkey above name hsplit).1 hother
  induction done using List.reverseRecOn with
  | nil =>
    refine ⟨fun key _ above name _ => .inl rfl, fun key hkey => absurd hkey List.not_mem_nil, ?_⟩
    exact fun _ leaf hleaf => absurd hleaf List.not_mem_nil
  | append_singleton done last ih =>
    have hlast : last ∈ keys := hdone last (List.mem_append_right _ (.head _))
    obtain ⟨hopen, hgiven, hleaves⟩ := ih fun key hkey => hdone key (List.mem_append_left _ hkey)
    rw [nestAll_concat]
    refine ⟨fun key hkey => ?_, fun key hkey => ?_, fun hvalues leaf hleaf => ?_⟩
    · exact (hopen last hlast).place (hopen key hkey) (hapart key hkey last hlast)
    · rw [given?_place (hopen last hlast) (hapart last hlast key (hdone key hkey))
        (hapart key (hdone key hkey) last hlast)]
      split
      · next heq => rw [heq]
      · next hne =>
        refine hgiven key ((List.mem_append.1 hkey).resolve_right fun hmem => ?_)
        exact hne (List.mem_singleton.1 hmem).symm
    · rcases leaves_place (hopen last hlast) (hvalues last hlast)
        (fun above name hsplit => (hkeys last hlast above name hsplit).2) hleaf with rfl | hold
      · exact ⟨hlast, rfl⟩
      · exact hleaves hvalues leaf hold

/-- A table that is written out gives every key its value. -/
theorem given?_nestAll (hkeys : Unmixed keys) {key : String} (hkey : key ∈ keys) :
    given? (nestAll g keys) key = some (g key) :=
  (nestAll_spec hkeys fun _ h => h).2.1 key hkey

/-- The model of a table that is written out takes every value over, if none is an object. -/
theorem Model.value?_ofMembers_nestAll (hkeys : Unmixed keys)
    (hvalues : ∀ key ∈ keys, (g key).isObject = false) {key : String} (hkey : key ∈ keys) :
    (ofMembers (nestAll g keys)).value? key = some (g key) := by
  have hleaf : (key, g key) ∈ leavesOfMembers "" (nestAll g keys) :=
    mem_leaves_of_given (given?_nestAll hkeys hkey) (hvalues key hkey) fun above name hsplit =>
      (hkeys key hkey above name hsplit).2
  refine value?_ofMembers (lastLeaf_of_not_overridden hleaf (not_overridden_of_unique ?_))
  exact fun w hw => ((nestAll_spec hkeys fun _ h => h).2.2 hvalues _ hw).2

/-! ## Writing a key of a table again -/

/-- A key that is held at top level may be written before or after another one is placed. -/
theorem put_place {params : Assoc Value} {key other : String} {value value' : Value}
    (hheld : Assoc.holds params key = true) (hne : other ≠ key)
    (hroot : ∀ above name, splitPath other = some (above, name) → above ≠ key) :
    Assoc.put (place params other value') key value =
      place (Assoc.put params key value) other value' := by
  unfold place
  cases hsplit : splitPath other with
  | none => exact Assoc.put_put_comm hheld hne value'
  | some path =>
    obtain ⟨above, name⟩ := path
    have habove := hroot above name hsplit
    dsimp only
    rw [Assoc.valueOf?_put, if_neg habove.symm]
    cases (Assoc.valueOf? params above).getD (.object []) with
    | object inner => exact Assoc.put_put_comm hheld habove _
    | _ => rfl

/-- Writing a key at top level again writes out the table with that value. -/
theorem put_nestAll (hkeys : Unmixed keys) {key : String} (hplain : splitPath key = none)
    (hkey : key ∈ keys) (value : Value) :
    Assoc.put (nestAll g keys) key value =
      nestAll (fun other => if other = key then value else g other) keys := by
  have hdone : ∀ done : List String, (∀ other ∈ done, other ∈ keys) → key ∈ done →
      Assoc.put (nestAll g done) key value =
        nestAll (fun other => if other = key then value else g other) done := by
    intro done
    induction done using List.reverseRecOn with
    | nil => exact fun _ hmem => absurd hmem List.not_mem_nil
    | append_singleton done last ih =>
      intro hdone hmem
      have hbefore : ∀ other ∈ done, other ∈ keys :=
        fun other hother => hdone other (List.mem_append_left _ hother)
      have hlast : last ∈ keys := hdone last (List.mem_append_right _ (.head _))
      rw [nestAll_concat, nestAll_concat]
      by_cases heq : last = key
      · subst heq
        rw [if_pos rfl, place_of_plain hplain, place_of_plain hplain, Assoc.put_put_self]
        by_cases hagain : last ∈ done
        · rw [← ih hbefore hagain, Assoc.put_put_self]
        · -- The key is new, so the table before it is the same one.
          have hsame : nestAll (fun other => if other = last then value else g other) done =
              nestAll g done := by
            refine nestAll_congr fun other hother => if_neg ?_
            rintro rfl
            exact hagain hother
          rw [hsame]
      · have hold : key ∈ done := by
          refine (List.mem_append.1 hmem).resolve_right fun hnew => heq ?_
          exact (List.mem_singleton.1 hnew).symm
        have hheld : Assoc.holds (nestAll g done) key = true := by
          have hgiven := (nestAll_spec (g := g) hkeys hbefore).2.1 key hold
          unfold given? at hgiven
          rw [hplain] at hgiven
          exact Option.isSome_iff_exists.2 ⟨_, hgiven⟩
        rw [if_neg heq, ← ih hbefore hold]
        exact put_place hheld heq fun above name hsplit habove =>
          (hkeys last hlast above name hsplit).1 (habove ▸ hkey)
  exact hdone keys (fun _ h => h) hkey

end SyncForm
