import Mathlib.Data.List.TakeWhile
import SyncForm.Proofs.Nesting

/-!
# What an export shares with its model

An export writes out the value of a key without a dot as it is, and what keys behind it put below
that key goes into the very object that the model holds. `Model.shared` is the value of a key after
an export of some keys, `Model.written?` what the export has under a name; `Export.Tracks` says that
an export under way has come that far, and one key takes it one key further (`Export.Tracks.step`).

So an export leaves every key, source and error, and it leaves the values unless a key goes through
an earlier one that holds an object and does not have that member yet. Exporting the same keys again
gives the same and changes nothing more: `Model.export_shares`. `Model.export_writes_back` is an
export that changes its model.
-/

namespace SyncForm

namespace Assoc

variable {α : Type} {a b : Assoc α} {key : String} {value : α}

/-- Writing what a key holds already changes nothing. -/
theorem put_self (h : valueOf? a key = some value) : put a key value = a := by
  induction a with
  | nil => cases h
  | cons first rest ih =>
    obtain ⟨k, v⟩ := first
    unfold valueOf? at h
    unfold put
    split at h
    · next hkey =>
      cases h
      rw [if_pos hkey, hkey]
    · next hkey => rw [if_neg hkey, ih h]

/-- Writing several keys with what they hold already changes nothing. -/
theorem putAll_self (h : ∀ kv ∈ b, valueOf? a kv.1 = some kv.2) : putAll a b = a := by
  induction b with
  | nil => rfl
  | cons kv rest ih =>
    rw [putAll, List.foldl_cons, put_self (h kv (.head _))]
    exact ih fun other hother => h other (.tail _ hother)

/-- The last of several keys is written last. -/
theorem putAll_concat (a b : Assoc α) (key : String) (value : α) :
    putAll a (b ++ [(key, value)]) = put (putAll a b) key value := by
  rw [putAll, List.foldl_append]
  rfl

/-- A key that several writes give one value holds it afterwards. -/
theorem valueOf?_putAll_of_mem (a : Assoc α) (h : (key, value) ∈ b)
    (hvalue : ∀ w, (key, w) ∈ b → w = value) : valueOf? (putAll a b) key = some value := by
  obtain ⟨before, after, last, rfl, hlast⟩ := exists_last h
  rw [putAll, List.foldl_append, List.foldl_cons]
  refine (valueOf?_putAll _ hlast).trans ?_
  rw [valueOf?_put, if_pos rfl, hvalue last (List.mem_append_right _ (.head _))]

/-- Keyed lists with the same keys, none of them twice, are equal if the keys hold the same. -/
theorem ext_of_nodup (hkeys : keys a = keys b) (hnodup : (keys a).Nodup)
    (h : ∀ key, valueOf? a key = valueOf? b key) : a = b := by
  induction a generalizing b with
  | nil => exact (List.map_eq_nil_iff.1 hkeys.symm).symm
  | cons first rest ih =>
    obtain ⟨k, v⟩ := first
    cases b with
    | nil => cases hkeys
    | cons first' rest' =>
      obtain ⟨k', v'⟩ := first'
      obtain ⟨rfl, hrest⟩ : k = k' ∧ keys rest = keys rest' := List.cons.inj hkeys
      obtain ⟨hnew, hnodup⟩ := List.nodup_cons.1 hnodup
      have hfirst := h k
      simp only [valueOf?, if_true, Option.some.injEq] at hfirst
      subst hfirst
      refine congrArg ((k, v) :: ·) (ih hrest hnodup fun key => ?_)
      by_cases hkey : k = key
      · -- The key of the first entry is held by neither rest.
        subst hkey
        have hnew' : k ∉ keys rest := hnew
        rw [valueOf?_eq_none hnew', valueOf?_eq_none (hrest ▸ hnew')]
      · have hother := h key
        simpa only [valueOf?, if_neg hkey] using hother

end Assoc

/-! ## Paths -/

/-- What stands before the first dot has none. -/
theorem splitPath_above {key above name : String} (h : splitPath key = some (above, name)) :
    splitPath above = none := by
  unfold splitPath at h
  dsimp only at h
  split at h
  · cases h
  · obtain ⟨rfl, -⟩ := Prod.mk.inj (Option.some.inj h)
    have hnone : (key.toList.takeWhile (· != '.')).dropWhile (· != '.') = [] :=
      List.dropWhile_eq_nil_iff.2 fun c hc => List.mem_takeWhile_imp (p := (· != '.')) hc
    unfold splitPath
    simp only [String.toList_ofList, hnone]

/-- The name under which a key is exported. -/
def root (key : String) : String :=
  match splitPath key with
  | some (above, _) => above
  | none => key

namespace Model

variable (m : Model)

/-! ## What an export comes to -/

/-- What a key puts below a name: the rest of the key and its value. -/
def memberBelow? (name key : String) : Option (String × Value) :=
  match splitPath key with
  | some (above, member) => if above = name then (m.value? key).map (member, ·) else none
  | none => none

/-- What the keys of a list put below a name, in order. -/
def below (name : String) (keys : List String) : Assoc Value :=
  keys.filterMap (m.memberBelow? name)

/-- The value of a key after an export of some keys: an object takes in what the keys behind it put
below it. -/
def shared (keys : List String) (key : String) : Value → Value
  | .object members =>
    .object (Assoc.putAll members (m.below key (keys.dropWhile (· != key))))
  | v => v

/-- The value that an export writes out under a name as it is. -/
def own? (keys : List String) (name : String) : Option Value :=
  if name ∈ keys ∧ splitPath name = none then m.value? name else none

/-- What an export of some keys has under a name: the value of the key, or a new object of what the
keys put below the name. -/
def written? (keys : List String) (name : String) : Option Value :=
  match m.own? keys name with
  | some v => some (m.shared keys name v)
  | none =>
    if m.below name keys = [] then none else some (.object (Assoc.putAll [] (m.below name keys)))

variable {m} {keys : List String} {key name above member : String} {v : Value}

/-- A key with a dot puts its value below what stands before the dot. -/
theorem memberBelow?_of_split (hsplit : splitPath key = some (above, member))
    (hv : m.value? key = some v) (name : String) :
    m.memberBelow? name key = if above = name then some (member, v) else none := by
  simp only [memberBelow?, hsplit, hv, Option.map_some]

/-- A key without a dot puts nothing below a name. -/
theorem memberBelow?_of_plain (hsplit : splitPath key = none) (name : String) :
    m.memberBelow? name key = none := by
  simp only [memberBelow?, hsplit]

/-- A key that is not held puts nothing below a name. -/
theorem memberBelow?_of_unheld (hv : m.value? key = none) (name : String) :
    m.memberBelow? name key = none := by
  unfold memberBelow?
  rw [hv]
  cases splitPath key <;> simp

/-- What a key puts below a name is the rest of the key and its value. -/
theorem memberBelow?_eq_some : m.memberBelow? name key = some (member, v) ↔
    splitPath key = some (name, member) ∧ m.value? key = some v := by
  unfold memberBelow?
  cases hsplit : splitPath key with
  | none => simp
  | some path =>
    obtain ⟨above, rest⟩ := path
    by_cases habove : above = name
    · cases m.value? key <;> simp [habove]
    · simp [habove]

/-- Nothing is put below a name with a dot. -/
theorem memberBelow?_of_dotted (hsplit : splitPath name = some (above, member)) (key : String) :
    m.memberBelow? name key = none := by
  cases hbelow : m.memberBelow? name key with
  | none => rfl
  | some mv =>
    have hplain := splitPath_above (memberBelow?_eq_some.1 hbelow).1
    cases hsplit.symm.trans hplain

/-- What another key puts below a name comes last. -/
theorem below_concat (m : Model) (name : String) (keys : List String) (key : String) :
    m.below name (keys ++ [key]) = m.below name keys ++ (m.memberBelow? name key).toList := by
  rw [below, List.filterMap_append]
  refine congrArg (m.below name keys ++ ·) ?_
  cases h : m.memberBelow? name key <;> simp [h]

/-- What is put below a name is the value of a key through that name. -/
theorem value?_of_mem_below (h : (member, v) ∈ m.below name keys) :
    m.value? (name ++ "." ++ member) = some v := by
  obtain ⟨key, -, hkey⟩ := List.mem_filterMap.1 h
  obtain ⟨hsplit, hv⟩ := memberBelow?_eq_some.1 hkey
  rw [← splitPath_eq_some hsplit]
  exact hv

/-- A key behind the first place of a name puts its value below that name. -/
theorem below_dropWhile_concat (m : Model) (name : String) (keys : List String) (key : String) :
    m.below name ((keys ++ [key]).dropWhile (· != name)) =
      m.below name (keys.dropWhile (· != name)) ++
        if name ∈ keys then (m.memberBelow? name key).toList else [] := by
  rw [List.dropWhile_append]
  by_cases hmem : name ∈ keys
  · have hbehind : (keys.dropWhile (· != name)).isEmpty = false := by
      rw [List.isEmpty_eq_false_iff, Ne, List.dropWhile_eq_nil_iff]
      intro hall
      simpa using hall name hmem
    rw [hbehind, if_neg Bool.false_ne_true, if_pos hmem, below_concat]
  · have hnone : keys.dropWhile (· != name) = [] := by
      rw [List.dropWhile_eq_nil_iff]
      intro key hkey
      simpa using fun hsame : key = name => hmem (hsame ▸ hkey)
    rw [hnone, if_neg hmem, List.isEmpty_nil, if_pos rfl, List.append_nil]
    by_cases hkey : key = name
    · have hself : m.memberBelow? name name = none := by
        cases hsplit : splitPath name with
        | none => exact memberBelow?_of_plain hsplit name
        | some path => exact memberBelow?_of_dotted hsplit name
      simp [below, hkey, hself]
    · simp [below, hkey]

/-- Nothing is put into the value of a key with a dot. -/
theorem shared_of_dotted (hsplit : splitPath key = some (above, member)) (keys : List String)
    (v : Value) : m.shared keys key v = v := by
  cases v with
  | object members =>
    have hnone : m.below key (keys.dropWhile (· != key)) = [] :=
      List.filterMap_eq_nil_iff.2 fun other _ => memberBelow?_of_dotted hsplit other
    rw [shared, hnone]
    rfl
  | _ => rfl

/-- Another key leaves the value under a name that it puts nothing below or that is not written
out. -/
theorem shared_concat_of_not (h : name ∉ keys ∨ m.memberBelow? name key = none) (v : Value) :
    m.shared (keys ++ [key]) name v = m.shared keys name v := by
  cases v with
  | object members =>
    have hnone : (if name ∈ keys then (m.memberBelow? name key).toList else []) = [] := by
      rcases h with hmem | hbelow
      · rw [if_neg hmem]
      · rw [hbelow]
        exact ite_self _
    rw [shared, below_dropWhile_concat, hnone, List.append_nil, shared]
  | _ => rfl

/-- An object that is written out takes in what another key puts below its name. -/
theorem shared_concat_object (hmem : name ∈ keys) (hsplit : splitPath key = some (name, member))
    (hv : m.value? key = some v) (members : Assoc Value) :
    m.shared (keys ++ [key]) name (.object members) =
      .object (Assoc.put (Assoc.putAll members (m.below name (keys.dropWhile (· != name))))
        member v) := by
  rw [shared, below_dropWhile_concat, if_pos hmem, memberBelow?_of_split hsplit hv, if_pos rfl,
    Option.toList_some, Assoc.putAll_concat]

/-- What is written out as it is, one key further. -/
theorem own?_concat (m : Model) (keys : List String) (key name : String) :
    m.own? (keys ++ [key]) name =
      if name = key ∧ splitPath name = none then m.value? name else m.own? keys name := by
  unfold own?
  by_cases hkey : name = key
  · subst hkey
    by_cases hsplit : splitPath name = none <;> simp [hsplit]
  · simp [hkey]

/-- A key with a dot is not written out as it is. -/
theorem own?_concat_of_split (hsplit : splitPath key = some (above, member)) (keys : List String)
    (name : String) : m.own? (keys ++ [key]) name = m.own? keys name := by
  rw [own?_concat, if_neg]
  rintro ⟨rfl, hplain⟩
  cases hsplit.symm.trans hplain

/-- Another key leaves what stands under a name that it puts nothing below and that it does not
write out. -/
theorem written?_concat_of_not (hbelow : m.memberBelow? name key = none)
    (hown : m.own? (keys ++ [key]) name = m.own? keys name) :
    m.written? (keys ++ [key]) name = m.written? keys name := by
  unfold written?
  rw [hown, below_concat, hbelow, Option.toList_none, List.append_nil]
  simp only [shared_concat_of_not (.inr hbelow)]

end Model

/-! ## An export under way -/

namespace Export

open Model

variable {m : Model} {done : List String} {x : Export} {key above member : String} {v : Value}

/-- An export has come as far as some keys take it. -/
structure Tracks (m : Model) (done : List String) (x : Export) : Prop where
  model : ∀ key, x.model.find? key =
    (m.find? key).map fun e => { e with value := m.shared done key e.value }
  own : ∀ name, name ∈ x.own ↔ (m.own? done name).isSome = true
  members : ∀ name, Assoc.valueOf? x.members name = m.written? done name

namespace Tracks

/-- The values of the model of an export under way. -/
theorem value? (h : Tracks m done x) (key : String) :
    x.model.value? key = (m.value? key).map (m.shared done key) := by
  rw [Model.value?, h.model, Model.value?, Option.map_map, Option.map_map]
  rfl

/-- A key that is not held is passed over. -/
theorem step_of_unheld (h : Tracks m done x) (hv : m.value? key = none) :
    Tracks m (done ++ [key]) (x.step key) := by
  have hstep : x.step key = x := by
    rw [step, h.value?, hv]
    rfl
  have hbelow := memberBelow?_of_unheld hv
  have hown : ∀ name, m.own? (done ++ [key]) name = m.own? done name := by
    intro name
    rw [own?_concat]
    split
    · next hname =>
      have hnone : m.own? done key = none := by
        unfold own?
        rw [hv]
        exact ite_self _
      rw [hname.1, hv, hnone]
    · rfl
  rw [hstep]
  refine ⟨fun name => ?_, fun name => ?_, fun name => ?_⟩
  · simp only [shared_concat_of_not (.inr (hbelow name)), h.model]
  · rw [hown, h.own]
  · rw [written?_concat_of_not (hbelow name) (hown name), h.members]

/-- A key without a dot is written out as the model holds it. -/
theorem step_of_plain (h : Tracks m done x) (hsplit : splitPath key = none)
    (hv : m.value? key = some v) : Tracks m (done ++ [key]) (x.step key) := by
  have hstep : x.step key = { x with
      members := Assoc.put x.members key (m.shared done key v), own := key :: x.own } := by
    simp only [step, h.value?, hv, Option.map_some, hsplit]
  have hbelow := memberBelow?_of_plain (m := m) hsplit
  rw [hstep]
  refine ⟨fun name => ?_, fun name => ?_, fun name => ?_⟩
  · simp only [shared_concat_of_not (.inr (hbelow name)), h.model]
  · rw [List.mem_cons, h.own, own?_concat]
    by_cases hname : name = key
    · simp [hname, hsplit, hv]
    · simp [hname]
  · rw [Assoc.valueOf?_put, h.members]
    by_cases hname : key = name
    · subst hname
      have hown : m.own? (done ++ [key]) key = some v := by
        rw [own?_concat, if_pos ⟨rfl, hsplit⟩, hv]
      rw [if_pos rfl, written?, hown]
      simp only [shared_concat_of_not (.inr (hbelow key))]
    · rw [if_neg hname, written?_concat_of_not (hbelow name)]
      rw [own?_concat, if_neg fun hself => hname hself.1.symm]

/-- A key with a dot concerns the name before the dot alone. -/
theorem of_above (h : Tracks m done x) (hsplit : splitPath key = some (above, member))
    (hv : m.value? key = some v) {x' : Export} (hsame : x'.own = x.own)
    (hothers : ∀ name, above ≠ name → x'.model.find? name = x.model.find? name ∧
      Assoc.valueOf? x'.members name = Assoc.valueOf? x.members name)
    (hmodel : x'.model.find? above =
      (m.find? above).map fun e => { e with value := m.shared (done ++ [key]) above e.value })
    (hmembers : Assoc.valueOf? x'.members above = m.written? (done ++ [key]) above) :
    Tracks m (done ++ [key]) x' := by
  have hbelow (name : String) (hname : above ≠ name) : m.memberBelow? name key = none := by
    rw [memberBelow?_of_split hsplit hv, if_neg hname]
  refine ⟨fun name => ?_, fun name => ?_, fun name => ?_⟩
  · by_cases hname : above = name
    · exact hname ▸ hmodel
    · rw [(hothers name hname).1, h.model]
      simp only [shared_concat_of_not (.inr (hbelow name hname))]
  · rw [hsame, own?_concat_of_split hsplit, h.own]
  · by_cases hname : above = name
    · exact hname ▸ hmembers
    · rw [(hothers name hname).2, h.members,
        written?_concat_of_not (hbelow name hname) (own?_concat_of_split hsplit ..)]

/-- A member goes into an object that is written out as the model holds it, and so into the
model. -/
theorem nest_of_own (h : Tracks m done x) (hsplit : splitPath key = some (above, member))
    (hv : m.value? key = some v) {members : Assoc Value} (hmem : above ∈ done)
    (hown : m.own? done above = some (.object members))
    (habove : m.value? above = some (.object members)) :
    Tracks m (done ++ [key]) (x.nest above member v) := by
  have hmine : x.own.contains above = true :=
    List.contains_iff_mem.2 ((h.own above).2 (by rw [hown]; rfl))
  have hheld : Assoc.valueOf? x.members above = some (m.shared done above (.object members)) := by
    rw [h.members, written?, hown]
  have hnest : x.nest above member v = { x with
      members := Assoc.put x.members above (m.shared (done ++ [key]) above (.object members))
      model := x.model.replace above (m.shared (done ++ [key]) above (.object members)) } := by
    rw [shared_concat_object hmem hsplit hv, nest, hheld, Option.getD_some, shared]
    simp only [hmine, if_true]
  rw [hnest]
  refine h.of_above hsplit hv rfl (fun name hname => ?_) ?_ ?_
  · rw [Model.find?_replace, if_neg hname, Assoc.valueOf?_put, if_neg hname]
    exact ⟨rfl, rfl⟩
  · obtain ⟨e, he, hvalue⟩ := Option.map_eq_some_iff.1 habove
    rw [Model.find?_replace, if_pos rfl, h.model, he]
    simp only [Option.map_some, hvalue]
  · rw [Assoc.valueOf?_put, if_pos rfl, written?, own?_concat_of_split hsplit, hown]

/-- A member of a value that is no object is passed over. -/
theorem nest_of_not_object (h : Tracks m done x) (hsplit : splitPath key = some (above, member))
    (hv : m.value? key = some v) {w : Value} (hown : m.own? done above = some w)
    (habove : m.value? above = some w) (hw : w.isObject = false) :
    Tracks m (done ++ [key]) (x.nest above member v) := by
  have hshared (keys : List String) : m.shared keys above w = w := by
    cases w with
    | object members => cases hw
    | _ => rfl
  have hheld : Assoc.valueOf? x.members above = some w := by
    rw [h.members, written?, hown]
    exact congrArg some (hshared done)
  have hnest : x.nest above member v = x := by
    rw [nest, hheld, Option.getD_some]
    cases w with
    | object members => cases hw
    | _ => rfl
  rw [hnest]
  refine h.of_above hsplit hv rfl (fun _ _ => ⟨rfl, rfl⟩) ?_ ?_
  · obtain ⟨e, he, rfl⟩ := Option.map_eq_some_iff.1 habove
    rw [h.model, he, Option.map_some, Option.map_some, hshared, hshared]
  · rw [hheld, written?, own?_concat_of_split hsplit, hown]
    exact congrArg some (hshared _).symm

/-- A member goes into a new object where the value of the name is not written out. -/
theorem nest_of_new (h : Tracks m done x) (hsplit : splitPath key = some (above, member))
    (hv : m.value? key = some v) (hown : m.own? done above = none)
    (habove : above ∉ done ∨ m.value? above = none) :
    Tracks m (done ++ [key]) (x.nest above member v) := by
  have hmine : x.own.contains above = false := by
    rw [← Bool.not_eq_true, List.contains_iff_mem, h.own, hown]
    exact Bool.false_ne_true
  have hheld : (Assoc.valueOf? x.members above).getD (.object []) =
      .object (Assoc.putAll [] (m.below above done)) := by
    rw [h.members, written?, hown]
    dsimp only
    split
    · next hnone => rw [hnone]; rfl
    · rfl
  have hnest : x.nest above member v = { x with
      members := Assoc.put x.members above
        (.object (Assoc.put (Assoc.putAll [] (m.below above done)) member v)) } := by
    rw [nest, hheld]
    simp only [hmine, Bool.false_eq_true, if_false]
  rw [hnest]
  refine h.of_above hsplit hv rfl (fun name hname => ⟨rfl, ?_⟩) ?_ ?_
  · rw [Assoc.valueOf?_put, if_neg hname]
  · rw [h.model]
    rcases habove with hmem | hnone
    · simp only [shared_concat_of_not (.inl hmem)]
    · rw [Option.map_eq_none_iff.1 hnone]
      rfl
  · have hbelow : m.below above (done ++ [key]) = m.below above done ++ [(member, v)] := by
      rw [below_concat, memberBelow?_of_split hsplit hv, if_pos rfl, Option.toList_some]
    rw [Assoc.valueOf?_put, if_pos rfl, written?, own?_concat_of_split hsplit, hown, hbelow,
      Assoc.putAll_concat]
    simp

/-- One key takes an export one key further. -/
theorem step (h : Tracks m done x) (key : String) : Tracks m (done ++ [key]) (x.step key) := by
  cases hv : m.value? key with
  | none => exact h.step_of_unheld hv
  | some v =>
    cases hsplit : splitPath key with
    | none => exact h.step_of_plain hsplit hv
    | some path =>
      obtain ⟨above, member⟩ := path
      have hnest : x.step key = x.nest above member v := by
        rw [Export.step, h.value?, hv, Option.map_some, shared_of_dotted hsplit]
        simp only [hsplit]
      have hplain := splitPath_above hsplit
      rw [hnest]
      by_cases hmem : above ∈ done
      · have hown : m.own? done above = m.value? above := if_pos ⟨hmem, hplain⟩
        cases habove : m.value? above with
        | none => exact h.nest_of_new hsplit hv (hown.trans habove) (.inr habove)
        | some w =>
          cases hw : w.isObject with
          | false => exact h.nest_of_not_object hsplit hv (hown.trans habove) habove hw
          | true =>
            cases w with
            | object members =>
              exact h.nest_of_own hsplit hv hmem (hown.trans habove) habove
            | _ => cases hw
      · exact h.nest_of_new hsplit hv (if_neg fun hwritten => hmem hwritten.1) (.inl hmem)

end Tracks

/-- One key adds the name under which it is exported to the names of an export, unless it is there
already or the key is not held. -/
theorem keys_step (x : Export) (key : String) :
    Assoc.keys (x.step key).members =
      if x.model.holds key = true ∧ root key ∉ Assoc.keys x.members
        then Assoc.keys x.members ++ [root key] else Assoc.keys x.members := by
  have hput (name : String) (value : Value) : Assoc.keys (Assoc.put x.members name value) =
      if name ∉ Assoc.keys x.members then Assoc.keys x.members ++ [name]
        else Assoc.keys x.members := by
    rw [Assoc.keys_put]
    simp only [Assoc.mem_keys_iff, ite_not]
  cases hv : x.model.value? key with
  | none =>
    have hunheld : x.model.holds key = false :=
      Bool.eq_false_iff.2 (Option.not_isSome_iff_eq_none.2 (Option.map_eq_none_iff.1 hv))
    rw [if_neg fun h => by simp [hunheld] at h]
    simp only [step, hv]
  | some v =>
    obtain ⟨e, he, -⟩ := Option.map_eq_some_iff.1 hv
    have hheld : x.model.holds key = true := Option.isSome_iff_exists.2 ⟨e, he⟩
    simp only [hheld, true_and]
    cases hsplit : splitPath key with
    | none => simp only [step, hv, root, hsplit, hput]
    | some path =>
      obtain ⟨above, member⟩ := path
      simp only [step, hv, root, hsplit, nest]
      split
      · simp only [hput]
      · next hother =>
        -- A value that is no object stands under the name already.
        have hmem : above ∈ Assoc.keys x.members := by
          by_contra hnew
          refine hother [] ?_
          rw [Assoc.valueOf?_eq_none hnew]
          rfl
        rw [if_neg (not_not.2 hmem)]

/-- An export of some keys. -/
def run (m : Model) (keys : List String) : Export :=
  keys.foldl step { model := m, members := [], own := [] }

/-- Of the keys of an export all but the last are exported first. -/
theorem run_concat (m : Model) (keys : List String) (key : String) :
    run m (keys ++ [key]) = (run m keys).step key := by
  rw [run, List.foldl_append]
  rfl

/-- An export of some keys comes as far as they take it. -/
theorem tracks_run (m : Model) (keys : List String) : Tracks m keys (run m keys) := by
  induction keys using List.reverseRecOn with
  | nil =>
    refine ⟨fun key => ?_, fun name => ?_, fun name => rfl⟩
    · have hnone (v : Value) : m.shared [] key v = v := by cases v <;> rfl
      simp only [hnone]
      exact Option.map_id'.symm
    · simp [run, own?]
  | append_singleton keys key ih =>
    rw [run_concat]
    exact ih.step key

/-- The model of an export under way holds the same keys. -/
theorem Tracks.holds (h : Tracks m done x) (key : String) : x.model.holds key = m.holds key := by
  have hfind := congrArg Option.isSome (h.model key)
  rwa [Option.isSome_map] at hfind

/-- No name is exported twice, and which names are exported in which order depends on the keys that
are held alone. -/
theorem keys_run (m : Model) (keys : List String) :
    (Assoc.keys (run m keys).members).Nodup ∧ ∀ m' : Model, (∀ key, m'.holds key = m.holds key) →
      Assoc.keys (run m' keys).members = Assoc.keys (run m keys).members := by
  induction keys using List.reverseRecOn with
  | nil => exact ⟨.nil, fun _ _ => rfl⟩
  | append_singleton keys key ih =>
    obtain ⟨hnodup, hsame⟩ := ih
    constructor
    · rw [run_concat, keys_step]
      split
      · next hnew =>
        rw [← List.concat_eq_append]
        exact hnodup.concat hnew.2
      · exact hnodup
    · intro m' hm'
      rw [run_concat, run_concat, keys_step, keys_step, (tracks_run m' keys).holds,
        (tracks_run m keys).holds, hm', hsame m' hm']

end Export

namespace Model

variable (m : Model) (keys : List String)

/-! ## Exporting again -/

/-- After an export every entry is as it was but for what its value shares. -/
theorem find?_exportKeys (key : String) : (m.exportKeys keys).2.find? key =
    (m.find? key).map fun e => { e with value := m.shared keys key e.value } :=
  (Export.tracks_run m keys).model key

/-- The values after an export. -/
theorem value?_exportKeys (key : String) :
    (m.exportKeys keys).2.value? key = (m.value? key).map (m.shared keys key) :=
  (Export.tracks_run m keys).value? key

/-- After an export a key puts below a name what it put there before. -/
theorem memberBelow?_exportKeys (name key : String) :
    (m.exportKeys keys).2.memberBelow? name key = m.memberBelow? name key := by
  cases hsplit : splitPath key with
  | none => rw [memberBelow?_of_plain hsplit, memberBelow?_of_plain hsplit]
  | some path =>
    obtain ⟨above, member⟩ := path
    simp only [memberBelow?, hsplit, value?_exportKeys, Option.map_map, Function.comp_def,
      shared_of_dotted hsplit]

/-- After an export some keys put below a name what they put there before. -/
theorem below_exportKeys (name : String) (others : List String) :
    (m.exportKeys keys).2.below name others = m.below name others :=
  congrArg (others.filterMap ·) (funext (m.memberBelow?_exportKeys keys name))

/-- What an object shares after an export it has taken in already. -/
theorem shared_shared (name : String) (v : Value) :
    (m.exportKeys keys).2.shared keys name (m.shared keys name v) = m.shared keys name v := by
  cases v with
  | object members =>
    simp only [shared, below_exportKeys]
    refine congrArg Value.object (Assoc.putAll_self fun kv hkv => ?_)
    refine Assoc.valueOf?_putAll_of_mem _ hkv fun w hw => ?_
    -- Both are the value of the one key that the path spells.
    have hvalue := value?_of_mem_below hkv
    exact Option.some.inj ((value?_of_mem_below hw).symm.trans hvalue)
  | _ => rfl

/-- Exporting the same keys again gives the same and changes nothing more. -/
theorem exportKeys_exportKeys :
    ((m.exportKeys keys).2.exportKeys keys).1 = (m.exportKeys keys).1 ∧
      ∀ key, ((m.exportKeys keys).2.exportKeys keys).2.find? key =
        (m.exportKeys keys).2.find? key := by
  have hheld : ∀ key, (m.exportKeys keys).2.holds key = m.holds key :=
    (Export.tracks_run m keys).holds
  have hown : ∀ name, (m.exportKeys keys).2.own? keys name =
      (m.own? keys name).map (m.shared keys name) := by
    intro name
    unfold own?
    split
    · exact m.value?_exportKeys keys name
    · rfl
  obtain ⟨hnodup, hnames⟩ := Export.keys_run m keys
  constructor
  · refine Assoc.ext_of_nodup (hnames _ hheld) ?_ fun name => ?_
    · exact (hnames _ hheld).symm ▸ hnodup
    · refine ((Export.tracks_run _ keys).members name).trans
        (Eq.trans ?_ ((Export.tracks_run m keys).members name).symm)
      unfold written?
      rw [hown, below_exportKeys]
      cases m.own? keys name with
      | none => rfl
      | some v => exact congrArg some (m.shared_shared keys name v)
  · intro key
    rw [find?_exportKeys, find?_exportKeys, Option.map_map]
    refine congrArg (Option.map · (m.find? key)) (funext fun e => ?_)
    simp only [Function.comp_apply, shared_shared]

/-- An object stays as it is just where it has every member that keys behind it put below it. -/
theorem shared_eq_self {name : String} {members : Assoc Value} :
    m.shared keys name (.object members) = .object members ↔
      ∀ member v, (member, v) ∈ m.below name (keys.dropWhile (· != name)) →
        Assoc.valueOf? members member = some v := by
  rw [shared, Value.object.injEq]
  constructor
  · intro hsame member v hmem
    rw [← hsame]
    refine Assoc.valueOf?_putAll_of_mem _ hmem fun w hw => ?_
    exact Option.some.inj ((value?_of_mem_below hw).symm.trans (value?_of_mem_below hmem))
  · exact fun hmembers => Assoc.putAll_self fun kv hkv => hmembers kv.1 kv.2 hkv

/-- An export shares objects with its model. It keeps the keys with their sources and errors, and the
value of a key is afterwards what `shared` makes of it: an object that is exported takes in the
values of the keys that go through it and stand behind it. So the model stays as it is just where
every key that goes through an object exported before it is a member of that object already.
Exporting the same keys again gives the same and changes nothing more. -/
theorem export_shares :
    (∀ key, (m.exportKeys keys).2.find? key =
      (m.find? key).map fun e => { e with value := m.shared keys key e.value }) ∧
    ((∀ key, (m.exportKeys keys).2.find? key = m.find? key) ↔
      ∀ above members key member v, m.value? above = some (.object members) →
        key ∈ keys.dropWhile (· != above) → splitPath key = some (above, member) →
        m.value? key = some v → Assoc.valueOf? members member = some v) ∧
    ((m.exportKeys keys).2.exportKeys keys).1 = (m.exportKeys keys).1 ∧
    ∀ key, ((m.exportKeys keys).2.exportKeys keys).2.find? key =
      (m.exportKeys keys).2.find? key := by
  refine ⟨m.find?_exportKeys keys, ⟨fun hsame => ?_, fun hmembers key => ?_⟩,
    m.exportKeys_exportKeys keys⟩
  · intro above members key member v habove hkey hsplit hv
    have hshared : m.shared keys above (.object members) = .object members := by
      have hvalue := m.value?_exportKeys keys above
      rw [value?_congr (hsame above), habove] at hvalue
      exact (Option.some.inj hvalue).symm
    refine (m.shared_eq_self keys).1 hshared member v (List.mem_filterMap.2 ⟨key, hkey, ?_⟩)
    exact memberBelow?_eq_some.2 ⟨hsplit, hv⟩
  · rw [find?_exportKeys]
    cases he : m.find? key with
    | none => rfl
    | some e =>
      have hvalue := value?_of_find? he
      have hshared : m.shared keys key e.value = e.value := by
        cases hobject : e.value with
        | object members =>
          refine (m.shared_eq_self keys).2 fun member v hmem => ?_
          obtain ⟨other, hother, hbelow⟩ := List.mem_filterMap.1 hmem
          obtain ⟨hsplit, hv⟩ := memberBelow?_eq_some.1 hbelow
          exact hmembers key members other member v (hobject ▸ hvalue) hother hsplit hv
        | _ => rfl
      rw [Option.map_some, hshared]

/-- A model that holds an empty object and, behind it, a key that goes through it. -/
def emptyObjectModel : Model :=
  ⟨[("a", { value := .object [], source := .user }),
    ("a.b", { value := .int 1, source := .user })]⟩

/-- The export of that model puts the member into the object that the model holds. -/
theorem export_writes_back :
    emptyObjectModel.value? "a" = some (.object []) ∧
      emptyObjectModel.exportAll.2.value? "a" = some (.object [("b", .int 1)]) :=
  ⟨rfl, rfl⟩

end Model

end SyncForm
