import Mathlib.Data.List.Nodup
import SyncForm.Proofs.Escapes

/-!
# Joined documents

What is written of a document is read as the document with its surrogate pairs joined and its names
merged (`Document.joined`). Where no object has a name twice, nothing is joined or merged just if no
text holds a pair (`joined_eq_self_iff`), and as long as the names of each object differ once they
are joined, the joined document is written like the document itself (`print_joined`). What the parts
of a document satisfy is put down as a `Law`.
-/

namespace SyncForm.Json

/-! ## Laws -/

/-- What the parts of a document satisfy: its integers, its texts, each name in it, and the names of
each object together. -/
structure Law where
  int : Int → Prop := fun _ => True
  text : List Nat → Prop := fun _ => True
  name : List Nat → Prop := fun _ => True
  names : List (List Nat) → Prop := fun _ => True

mutual

/-- A document satisfies a law in all its parts. -/
def Document.Obeys (law : Law) : Document → Prop
  | .int i => law.int i
  | .text text => law.text text
  | .array items => ItemsObey law items
  | .object members => law.names (members.map (·.1)) ∧ MembersObey law members
  | _ => True

/-- All items satisfy a law. -/
def ItemsObey (law : Law) : List Document → Prop
  | [] => True
  | item :: items => item.Obeys law ∧ ItemsObey law items

/-- All members satisfy a law, names and values. -/
def MembersObey (law : Law) : List (List Nat × Document) → Prop
  | [] => True
  | (name, value) :: members => law.name name ∧ value.Obeys law ∧ MembersObey law members

end

/-- An integer has no more digits than are read. -/
def Sized (i : Int) : Prop :=
  (Nat.toDigits 10 i.natAbs).length ≤ digitLimit

namespace Law

/-- What is written can be read. -/
def legible : Law where
  int := Sized
  text := IsText
  name := IsText

/-- What is read has no integer with too many digits and no name twice, and its texts have a
property. -/
def read (texts : List Nat → Prop) : Law where
  int := Sized
  text := texts
  name := texts
  names := List.Nodup

/-- What is read from code points. -/
def json : Law :=
  read IsText

/-- No text holds a surrogate pair in two halves, be it a name or not. -/
def unpaired : Law where
  text := Unpaired
  name := Unpaired

/-- The names of an object still differ with their surrogate pairs joined. -/
def distinct : Law where
  names names := (names.map joinCodes).Nodup

/-- One law follows from two others. What the names of an object satisfy together may follow from
what each of them satisfies. -/
structure FollowsFrom (law law₁ law₂ : Law) : Prop where
  int : ∀ i, law₁.int i → law₂.int i → law.int i
  text : ∀ text, law₁.text text → law₂.text text → law.text text
  name : ∀ name, law₁.name name → law₂.name name → law.name name
  names : ∀ names, (∀ name ∈ names, law₁.name name ∧ law₂.name name) →
    law₁.names names → law₂.names names → law.names names

end Law

section

variable {law law₁ law₂ : Law}

/-- Members satisfy a law just if each of them does. -/
theorem membersObey_iff {members : List (List Nat × Document)} :
    MembersObey law members ↔ ∀ member ∈ members, law.name member.1 ∧ member.2.Obeys law := by
  induction members with
  | nil => exact iff_of_true trivial fun _ h => absurd h List.not_mem_nil
  | cons member members ih => rw [MembersObey, ih, List.forall_mem_cons, and_assoc]

mutual

/-- What satisfies two laws satisfies one that follows from them. -/
theorem Law.FollowsFrom.obeys (h : law.FollowsFrom law₁ law₂) :
    ∀ {d : Document}, d.Obeys law₁ → d.Obeys law₂ → d.Obeys law
  | .null, _, _ => trivial
  | .bool _, _, _ => trivial
  | .float _, _, _ => trivial
  | .int i, h₁, h₂ => h.int i h₁ h₂
  | .text text, h₁, h₂ => h.text text h₁ h₂
  | .array _, h₁, h₂ => h.itemsObey h₁ h₂
  | .object _, h₁, h₂ => by
    refine ⟨h.names _ (List.forall_mem_map.2 fun member hmember => ?_) h₁.1 h₂.1,
      h.membersObey h₁.2 h₂.2⟩
    exact ⟨(membersObey_iff.1 h₁.2 member hmember).1, (membersObey_iff.1 h₂.2 member hmember).1⟩

/-- The same for the items of an array. -/
theorem Law.FollowsFrom.itemsObey (h : law.FollowsFrom law₁ law₂) :
    ∀ {items : List Document}, ItemsObey law₁ items → ItemsObey law₂ items → ItemsObey law items
  | [], _, _ => trivial
  | _ :: _, h₁, h₂ => ⟨h.obeys h₁.1 h₂.1, h.itemsObey h₁.2 h₂.2⟩

/-- The same for the members of an object. -/
theorem Law.FollowsFrom.membersObey (h : law.FollowsFrom law₁ law₂) :
    ∀ {members : List (List Nat × Document)}, MembersObey law₁ members →
      MembersObey law₂ members → MembersObey law members
  | [], _, _ => trivial
  | (name, _) :: _, h₁, h₂ =>
    ⟨h.name name h₁.1 h₂.1, h.obeys h₁.2.1 h₂.2.1, h.membersObey h₁.2.2 h₂.2.2⟩

end

/-- What is JSON is legible. -/
theorem legible_of_json {d : Document} (h : d.Obeys .json) : d.Obeys .legible :=
  have hlegible : Law.legible.FollowsFrom .json .json :=
    ⟨fun _ h _ => h, fun _ h _ => h, fun _ h _ => h, fun _ _ _ _ => trivial⟩
  hlegible.obeys h h

end

/-! ## Members -/

/-- A new member comes last. -/
theorem putMember_of_notMem {members : List (List Nat × Document)} {name : List Nat}
    (value : Document) (h : name ∉ members.map (·.1)) :
    putMember members name value = members ++ [(name, value)] := by
  induction members with
  | nil => rfl
  | cons member members ih =>
    obtain ⟨k, v⟩ := member
    rw [List.map_cons, List.mem_cons, not_or] at h
    rw [putMember, if_neg (Ne.symm h.1), ih h.2, List.cons_append]

/-- Writing a member keeps the names that are there, and a new name comes last. -/
theorem names_putMember (members : List (List Nat × Document)) (name : List Nat)
    (value : Document) : (putMember members name value).map (·.1) =
      if name ∈ members.map (·.1) then members.map (·.1) else members.map (·.1) ++ [name] := by
  induction members with
  | nil => rfl
  | cons member members ih =>
    obtain ⟨k, v⟩ := member
    rw [putMember]
    by_cases hk : k = name
    · simp [hk]
    · rw [if_neg hk, List.map_cons, ih]
      split <;> simp_all [Ne.symm hk]

/-- Writing a member changes what its name holds and nothing else. -/
theorem lookup_putMember (members : List (List Nat × Document)) (name : List Nat)
    (value : Document) (other : List Nat) : (putMember members name value).lookup other =
      if other = name then some value else members.lookup other := by
  induction members with
  | nil =>
    by_cases h : other = name
    · simp [putMember, h]
    · simp [putMember, List.lookup_cons, beq_eq_false_iff_ne.2 h, h]
  | cons member members ih =>
    obtain ⟨k, v⟩ := member
    rw [putMember]
    by_cases h : other = k
    · subst h
      split <;> simp
    · split
      · next hk => simp [List.lookup_cons, beq_eq_false_iff_ne.2 h, ← hk, h]
      · simp only [List.lookup_cons, beq_eq_false_iff_ne.2 h, ih]

/-- Writing a member keeps a law that the member satisfies. -/
theorem membersObey_putMember {law : Law} {members : List (List Nat × Document)} {name : List Nat}
    {value : Document} (hmembers : MembersObey law members) (hname : law.name name)
    (hvalue : value.Obeys law) : MembersObey law (putMember members name value) := by
  induction members with
  | nil => exact ⟨hname, hvalue, trivial⟩
  | cons member members ih =>
    obtain ⟨k, v⟩ := member
    obtain ⟨hk, hv, hmembers⟩ := hmembers
    rw [putMember]
    split
    · exact ⟨hk, hvalue, hmembers⟩
    · exact ⟨hk, hv, ih hmembers⟩

/-- Writing members one after the other keeps a law that all of them satisfy. -/
theorem membersObey_mergeMembers {law : Law} {done members : List (List Nat × Document)}
    (hdone : MembersObey law done) (hmembers : MembersObey law members) :
    MembersObey law (mergeMembers done members) := by
  induction members generalizing done with
  | nil => exact hdone
  | cons member members ih =>
    obtain ⟨hname, hvalue, hrest⟩ := hmembers
    exact ih (membersObey_putMember hdone hname hvalue) hrest

/-- The last member is written last. -/
theorem mergeMembers_concat (done members : List (List Nat × Document))
    (member : List Nat × Document) : mergeMembers done (members ++ [member]) =
      putMember (mergeMembers done members) member.1 member.2 :=
  List.foldl_append

/-- A name that is written several times keeps its first place. -/
theorem names_mergeMembers (members : List (List Nat × Document)) :
    (mergeMembers [] members).map (·.1) = (members.map (·.1)).eraseDups := by
  induction members using List.reverseRecOn with
  | nil => rfl
  | append_singleton members member ih =>
    rw [mergeMembers_concat, names_putMember, ih, List.map_append, List.eraseDups_append,
      List.map_singleton]
    by_cases h : member.1 ∈ members.map (·.1)
    · rw [if_pos (List.mem_eraseDups.2 h)]
      simp [List.removeAll, h]
    · rw [if_neg fun held => h (List.mem_eraseDups.1 held)]
      simp [List.removeAll, h, List.eraseDups_cons]

/-- A name that is written several times holds its last value. -/
theorem lookup_mergeMembers (members : List (List Nat × Document)) (name : List Nat) :
    (mergeMembers [] members).lookup name = members.reverse.lookup name := by
  induction members using List.reverseRecOn with
  | nil => rfl
  | append_singleton members member ih =>
    obtain ⟨k, v⟩ := member
    rw [mergeMembers_concat, lookup_putMember, ih, List.reverse_append, List.reverse_singleton,
      List.singleton_append]
    by_cases h : name = k
    · simp [h]
    · simp [List.lookup_cons, beq_eq_false_iff_ne.2 h, h]

/-- Members whose names differ are held as they are written. -/
theorem mergeMembers_of_nodup {done members : List (List Nat × Document)}
    (hnames : ((done ++ members).map (·.1)).Nodup) :
    mergeMembers done members = done ++ members := by
  induction members generalizing done with
  | nil => exact (List.append_nil done).symm
  | cons member members ih =>
    have hsplit : done ++ member :: members = done ++ [member] ++ members := by simp
    have hnew : member.1 ∉ done.map (·.1) := by
      rw [List.map_append, List.map_cons, List.nodup_append] at hnames
      exact fun h => hnames.2.2 member.1 h member.1 (.head _) rfl
    rw [hsplit] at hnames ⊢
    rw [← ih hnames, ← putMember_of_notMem member.2 hnew]
    rfl

/-! ## Joined documents -/

mutual

/-- A document with the surrogate pairs in its texts joined. A name that an object then has several
times keeps its first place and its last value. -/
def Document.joined : Document → Document
  | .text text => .text (joinCodes text)
  | .array items => .array (joinItems items)
  | .object members => .object (mergeMembers [] (joinMembers members))
  | d => d

/-- The items of an array, joined. -/
def joinItems : List Document → List Document
  | [] => []
  | item :: items => item.joined :: joinItems items

/-- The members of an object, joined one by one. -/
def joinMembers : List (List Nat × Document) → List (List Nat × Document)
  | [] => []
  | (name, value) :: members => (joinCodes name, value.joined) :: joinMembers members

end

/-- Members are joined name by name. -/
theorem names_joinMembers (members : List (List Nat × Document)) :
    (joinMembers members).map (·.1) = (members.map (·.1)).map joinCodes := by
  induction members with
  | nil => rfl
  | cons member members ih => rw [joinMembers, List.map_cons, ih, List.map_cons, List.map_cons]

/-- Members that stand side by side are joined side by side. -/
theorem joinMembers_append (before after : List (List Nat × Document)) :
    joinMembers (before ++ after) = joinMembers before ++ joinMembers after := by
  induction before with
  | nil => rfl
  | cons member before ih => rw [List.cons_append, joinMembers, ih, joinMembers, List.cons_append]

/-- Members whose names differ once they are joined are held one by one. -/
theorem mergeMembers_joinMembers {members : List (List Nat × Document)}
    (hnames : ((members.map (·.1)).map joinCodes).Nodup) :
    mergeMembers [] (joinMembers members) = joinMembers members := by
  refine mergeMembers_of_nodup ?_
  rwa [List.nil_append, names_joinMembers]

/-- Names that differ and are unpaired still differ once they are joined. -/
theorem nodup_joined {names : List (List Nat)} (hnames : names.Nodup)
    (hunpaired : ∀ name ∈ names, Unpaired name) : (names.map joinCodes).Nodup := by
  have hsame : names.map joinCodes = names.map id :=
    List.map_congr_left fun name hname => joinCodes_of_unpaired (hunpaired name hname)
  rwa [hsame, List.map_id]

/-- Where no name of an object holds a surrogate pair in two halves, its names still differ once
they are joined. -/
theorem distinct_of_unpaired {d : Document} (hjson : d.Obeys .json)
    (hunpaired : d.Obeys .unpaired) : d.Obeys .distinct :=
  have hdistinct : Law.distinct.FollowsFrom .json .unpaired :=
    ⟨fun _ _ _ => trivial, fun _ _ _ => trivial, fun _ _ _ => trivial,
      fun _ hnames hnodup _ => nodup_joined hnodup fun name hname => (hnames name hname).2⟩
  hdistinct.obeys hjson hunpaired

mutual

/-- Nothing is joined in a document that has no name twice and no surrogate pair in two halves. -/
theorem joined_eq_self : ∀ {d : Document}, d.Obeys .json → d.Obeys .unpaired → d.joined = d
  | .null, _, _ => rfl
  | .bool _, _, _ => rfl
  | .int _, _, _ => rfl
  | .float _, _, _ => rfl
  | .text _, _, hunpaired => congrArg Document.text (joinCodes_of_unpaired hunpaired)
  | .array _, hjson, hunpaired => congrArg Document.array (joinItems_eq_self hjson hunpaired)
  | .object members, hjson, hunpaired => by
    rw [Document.joined, mergeMembers_joinMembers (distinct_of_unpaired hjson hunpaired).1,
      joinMembers_eq_self hjson.2 hunpaired.2]

/-- The same for the items of an array. -/
theorem joinItems_eq_self : ∀ {items : List Document}, ItemsObey .json items →
    ItemsObey .unpaired items → joinItems items = items
  | [], _, _ => rfl
  | item :: items, hjson, hunpaired => by
    rw [joinItems, joined_eq_self hjson.1 hunpaired.1, joinItems_eq_self hjson.2 hunpaired.2]

/-- The same for the members of an object. -/
theorem joinMembers_eq_self : ∀ {members : List (List Nat × Document)},
    MembersObey .json members → MembersObey .unpaired members → joinMembers members = members
  | [], _, _ => rfl
  | (name, value) :: members, hjson, hunpaired => by
    rw [joinMembers, joinCodes_of_unpaired hunpaired.1, joined_eq_self hjson.2.1 hunpaired.2.1,
      joinMembers_eq_self hjson.2.2 hunpaired.2.2]

end

mutual

/-- A document whose surrogate pairs are joined holds none in two halves. -/
theorem unpaired_joined : ∀ d : Document, d.joined.Obeys .unpaired
  | .null => trivial
  | .bool _ => trivial
  | .int _ => trivial
  | .float _ => trivial
  | .text text => unpaired_joinCodes text
  | .array items => unpaired_joinItems items
  | .object members => ⟨trivial, membersObey_mergeMembers trivial (unpaired_joinMembers members)⟩

/-- The same for the items of an array. -/
theorem unpaired_joinItems : ∀ items : List Document, ItemsObey .unpaired (joinItems items)
  | [] => trivial
  | item :: items => ⟨unpaired_joined item, unpaired_joinItems items⟩

/-- The same for the members of an object. -/
theorem unpaired_joinMembers : ∀ members : List (List Nat × Document),
    MembersObey .unpaired (joinMembers members)
  | [] => trivial
  | (name, value) :: members =>
    ⟨unpaired_joinCodes name, unpaired_joined value, unpaired_joinMembers members⟩

end

/-- A document without repeated names is its joined form just if it holds no surrogate pair in two
halves. -/
theorem joined_eq_self_iff {d : Document} (hjson : d.Obeys .json) :
    d.joined = d ↔ d.Obeys .unpaired :=
  ⟨fun h => h ▸ unpaired_joined d, joined_eq_self hjson⟩

/-- A text and the text with its surrogate pairs joined are written alike. -/
theorem printText_joinCodes (text : List Nat) : printText (joinCodes text) = printText text := by
  rw [printText, flatMap_printCode_joinCodes, printText]

mutual

/-- A document whose names still differ once they are joined is written like the document with all
surrogate pairs joined. -/
theorem print_joined (style : Style) (depth : Nat) : ∀ {d : Document}, d.Obeys .distinct →
    d.joined.print style depth = d.print style depth
  | .null, _ => rfl
  | .bool _, _ => rfl
  | .int _, _ => rfl
  | .float _, _ => rfl
  | .text text, _ => printText_joinCodes text
  | .array [], _ => rfl
  | .array (item :: items), h => by
    rw [Document.joined, joinItems, Document.print, Document.print, print_joined style _ h.1,
      printItems_joinItems style depth h.2]
  | .object [], _ => rfl
  | .object ((name, value) :: members), h => by
    rw [Document.joined, mergeMembers_joinMembers h.1, joinMembers, Document.print, Document.print,
      printText_joinCodes, print_joined style _ h.2.2.1,
      printMembers_joinMembers style depth h.2.2.2]

/-- The same for the items of an array. -/
theorem printItems_joinItems (style : Style) (depth : Nat) : ∀ {items : List Document},
    ItemsObey .distinct items →
      printItems style depth (joinItems items) = printItems style depth items
  | [], _ => rfl
  | item :: items, h => by
    rw [joinItems, printItems, printItems, print_joined style _ h.1,
      printItems_joinItems style depth h.2]

/-- The same for the members of an object. -/
theorem printMembers_joinMembers (style : Style) (depth : Nat) :
    ∀ {members : List (List Nat × Document)}, MembersObey .distinct members →
      printMembers style depth (joinMembers members) = printMembers style depth members
  | [], _ => rfl
  | (name, value) :: members, h => by
    rw [joinMembers, printMembers, printMembers, printText_joinCodes, print_joined style _ h.2.1,
      printMembers_joinMembers style depth h.2.2]

end

end SyncForm.Json
