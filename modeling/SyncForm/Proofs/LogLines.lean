import Mathlib.Data.List.Nodup
import SyncForm.Log.Record
import SyncForm.Proofs.Documents
import SyncForm.Proofs.ReadLaws
import SyncForm.Proofs.Reading

/-!
# Log lines

A record with attributes attached to it is written as one line, and the line reads back as an object
in which every attribute that is shown stands once, among those that identify a form or among the
others (`LogRecord.line_reads_back`). This takes a message that can be filled in, a time that can be
written and, where the error of the record has been replaced, a document whose text can be told. No
shown attribute may hold a surrogate pair in two halves, since these come back as one code point:
`LogRecord.line_of_hostile` shows a record that has no line because of what replaces its error, and
another one whose attribute comes back changed.
-/

namespace SyncForm

open Json (Document IsText Unpaired codesOf readCodes)

namespace LogRecord

variable {r : LogRecord} {extras : List (List Nat × Document)} {excluded : List (List Nat)}

/-! ## Attaching attributes -/

/-- A record with attributes attached to it, one after the other. -/
def attachAll (r : LogRecord) (extras : List (List Nat × Document)) : LogRecord :=
  extras.foldl (fun r extra => r.attach extra.1 extra.2) r

/-- The names under which an attribute replaces what a record holds of its own. -/
def replacedAttributes : List (List Nat) :=
  replacements.map (·.1)

/-- No replaced attribute is shown. -/
theorem reserved_of_replaced : ∀ name ∈ replacedAttributes, name ∈ reservedAttributes := by
  decide

/-- An attribute replaces what a record holds of its own in one of the ways there are, or it is put
among the others. -/
theorem attach_cases (r : LogRecord) (name : List Nat) (d : Document) :
    (∃ own ∈ replacements, name = own.1 ∧ r.attach name d = own.2 r d) ∨
    (name ∉ replacedAttributes ∧
      r.attach name d = { r with attributes := Json.putMember r.attributes name d }) := by
  unfold attach
  cases hname : replacements.lookup name with
  | some replace =>
    obtain ⟨before, after, hsplit, -⟩ := List.lookup_eq_some_iff.1 hname
    exact .inl ⟨(name, replace), by simp [hsplit], rfl, rfl⟩
  | none =>
    refine .inr ⟨fun hreplaced => ?_, rfl⟩
    obtain ⟨own, hown, rfl⟩ := List.mem_map.1 hreplaced
    simpa using List.lookup_eq_none_iff.1 hname own hown

/-- An attribute that replaces something is put nowhere. -/
theorem attributes_replace (r : LogRecord) (d : Document) :
    ∀ own ∈ replacements, (own.2 r d).attributes = r.attributes := by
  simp [replacements]

/-- An attribute that replaces something leaves the error of a record or is put in its place. -/
theorem failure_replace (r : LogRecord) (d : Document) : ∀ own ∈ replacements,
    ((own.2 r d).failure = r.failure ∧ (own.2 r d).attached = r.attached) ∨
      (own.1 = codesOf "exc_info" ∧ (own.2 r d).failure = none ∧ (own.2 r d).attached = d) := by
  simp [replacements]

/-- An attribute replaces what a record holds of its own or is put among the others. -/
theorem attributes_attach (r : LogRecord) (name : List Nat) (d : Document) :
    (r.attach name d).attributes = if name ∈ replacedAttributes then r.attributes
      else Json.putMember r.attributes name d := by
  obtain ⟨own, hown, rfl, hattach⟩ | ⟨hname, hattach⟩ := r.attach_cases name d
  · have hreplaced : own.1 ∈ replacedAttributes := List.mem_map_of_mem hown
    rw [hattach, attributes_replace r d own hown, if_pos hreplaced]
  · rw [hattach, if_neg hname]

/-- An attribute leaves the error of a record or is put in its place. -/
theorem failure_attach (r : LogRecord) (name : List Nat) (d : Document) :
    ((r.attach name d).failure = r.failure ∧ (r.attach name d).attached = r.attached) ∨
      (name = codesOf "exc_info" ∧ (r.attach name d).failure = none ∧
        (r.attach name d).attached = d) := by
  obtain ⟨own, hown, rfl, hattach⟩ | ⟨-, hattach⟩ := r.attach_cases name d
  · rw [hattach]
    exact failure_replace r d own hown
  · rw [hattach]
    exact .inl ⟨rfl, rfl⟩

/-- What a record holds of its own and is written as it is is legible. -/
structure OwnLegible (r : LogRecord) : Prop where
  logger : r.logger.Obeys .legible
  level : r.level.Obeys .legible
  path : r.path.Obeys .legible
  line : r.line.Obeys .legible
  function : r.function.Obeys .legible
  failure : ∀ failure ∈ r.failure, IsText failure.text

/-- A record as it is made: nothing has been attached to it yet. -/
structure IsMade (r : LogRecord) : Prop extends OwnLegible r where
  attributes : r.attributes = []
  attached : r.attached = .null

/-- Attaching a legible attribute keeps what is written legible. -/
theorem OwnLegible.attach (h : r.OwnLegible) (name : List Nat) {d : Document}
    (hd : d.Obeys .legible) : (r.attach name d).OwnLegible := by
  have hreplace : ∀ own ∈ replacements, (own.2 r d).OwnLegible := by
    simp only [replacements, List.forall_mem_cons]
    exact ⟨{ h with logger := hd }, { h with level := hd }, { h with path := hd },
      { h with line := hd }, { h with function := hd }, { h with }, { h with }, { h with },
      { h with failure := nofun }, nofun⟩
  obtain ⟨own, hown, -, hattach⟩ | ⟨-, hattach⟩ := r.attach_cases name d
  · rw [hattach]
    exact hreplace own hown
  · rw [hattach]
    exact { h with }

/-- Attaching legible attributes keeps what is written legible. -/
theorem OwnLegible.attachAll (h : r.OwnLegible)
    (hextras : ∀ extra ∈ extras, extra.2.Obeys .legible) : (r.attachAll extras).OwnLegible := by
  induction extras generalizing r with
  | nil => exact h
  | cons extra rest ih =>
    rw [List.forall_mem_cons] at hextras
    exact ih (h.attach extra.1 hextras.1) hextras.2

/-- Attributes whose names differ are put in order behind those that are there, up to those that
replace what a record holds of its own. -/
theorem attributes_attachAll (r : LogRecord) (extras : List (List Nat × Document))
    (hnames : ((r.attributes ++ extras).map (·.1)).Nodup) :
    (r.attachAll extras).attributes =
      r.attributes ++ extras.filter fun extra => extra.1 ∉ replacedAttributes := by
  induction extras generalizing r with
  | nil => exact (List.append_nil _).symm
  | cons extra rest ih =>
    obtain ⟨name, d⟩ := extra
    have hstep := r.attributes_attach name d
    have hrest : r.attachAll ((name, d) :: rest) = (r.attach name d).attachAll rest := rfl
    rw [hrest]
    by_cases hreplaced : name ∈ replacedAttributes
    · rw [if_pos hreplaced] at hstep
      have hkept : ((r.attributes ++ rest).map (·.1)).Nodup :=
        hnames.sublist ((List.sublist_cons_self _ _).append_left r.attributes |>.map _)
      rw [List.filter_cons_of_neg (by simp [hreplaced]), ← hstep]
      exact ih _ (by rwa [hstep])
    · have hnew : name ∉ r.attributes.map (·.1) := by
        rw [List.map_append, List.nodup_append] at hnames
        exact fun hmem => hnames.2.2 name hmem name (.head _) rfl
      rw [if_neg hreplaced, Json.putMember_of_notMem d hnew] at hstep
      rw [List.filter_cons_of_pos (by simp [hreplaced]), ← List.singleton_append,
        ← List.append_assoc, ← hstep]
      refine ih _ ?_
      rw [hstep, List.append_assoc]
      exact hnames

/-- The attributes of a record that are shown are those attached to it, up to the reserved and the
excluded ones. -/
theorem shown_attachAll (hr : r.attributes = []) (hnames : (extras.map (·.1)).Nodup)
    (excluded : List (List Nat)) : (r.attachAll extras).shown excluded =
      extras.filter fun extra => extra.1 ∉ reservedAttributes ∧ extra.1 ∉ excluded := by
  have hattributes := r.attributes_attachAll extras (by rwa [hr])
  rw [shown, hattributes, hr, List.nil_append, List.filter_filter]
  refine List.filter_congr fun extra _ => ?_
  have hreplaced := reserved_of_replaced extra.1
  by_cases hreserved : extra.1 ∈ reservedAttributes
  · simp [hreserved]
  · simp [hreserved, mt hreplaced hreserved]

/-- The error of a record is the one it was made with, or a document that replaces it. -/
theorem failure_attachAll (r : LogRecord) (extras : List (List Nat × Document)) :
    ((r.attachAll extras).failure = r.failure ∧ (r.attachAll extras).attached = r.attached) ∨
      ∃ d, (codesOf "exc_info", d) ∈ extras ∧ (r.attachAll extras).failure = none ∧
        (r.attachAll extras).attached = d := by
  induction extras using List.reverseRecOn with
  | nil => exact .inl ⟨rfl, rfl⟩
  | append_singleton extras extra ih =>
    obtain ⟨name, d⟩ := extra
    have hlast : r.attachAll (extras ++ [(name, d)]) = (r.attachAll extras).attach name d :=
      List.foldl_append
    rw [hlast]
    obtain ⟨hfailure, hattached⟩ | ⟨rfl, hfailure, hattached⟩ :=
      (r.attachAll extras).failure_attach name d
    · rw [hfailure, hattached]
      exact ih.imp_right fun ⟨d, hmem, hrest⟩ => ⟨d, List.mem_append_left _ hmem, hrest⟩
    · exact .inr ⟨d, by simp, hfailure, hattached⟩

/-- The text of an error consists of code points. -/
theorem isText_failure {failure : Failure} (h : IsText failure.text) :
    IsText (Failure.text failure) := by
  have hquoted : IsText (if failure.family = "KeyError" then
      codesOf (Text.quoteCodes failure.text) else failure.text) := by
    split
    · exact Json.isText_codesOf _
    · exact h
  unfold Failure.text
  dsimp only
  generalize (if failure.family = "KeyError" then
    codesOf (Text.quoteCodes failure.text) else failure.text) = text at *
  split
  · exact Json.isText_codesOf _
  · exact List.forall_mem_append.2 ⟨Json.isText_codesOf _, hquoted⟩

/-- The text of what is taken for an error consists of code points. -/
theorem isText_attached {d : Document} {text : List Nat} (h : attachedText d = .ok text) :
    IsText text := by
  unfold attachedText at h
  split at h
  · cases h
    exact Json.isText_codesOf _
  all_goals cases h

/-- The error of a record has a text, if every document that replaces it has one. -/
theorem exists_failureText (hr : r.IsMade)
    (htexts : ∀ d, (codesOf "exc_info", d) ∈ extras → d.isTrue = true →
      ∃ text, attachedText d = .ok text) :
    ∃ failure, (r.attachAll extras).failureText = .ok failure ∧ ∀ text ∈ failure, IsText text := by
  unfold failureText
  rcases r.failure_attachAll extras with ⟨hfailure, hattached⟩ | ⟨d, hmem, hfailure, hattached⟩
  · rw [hfailure, hattached, hr.attached]
    cases hmade : r.failure with
    | none => exact ⟨none, rfl, nofun⟩
    | some failure =>
      refine ⟨_, rfl, fun text htext => ?_⟩
      obtain rfl := Option.some.inj htext
      exact isText_failure (hr.failure failure hmade)
  · rw [hfailure, hattached]
    dsimp only
    split
    · next htrue =>
      obtain ⟨text, htext⟩ := htexts d hmem htrue
      refine ⟨some text, by rw [htext]; rfl, fun other hother => ?_⟩
      obtain rfl := Option.some.inj hother
      exact isText_attached htext
    · exact ⟨none, rfl, nofun⟩

/-! ## The object of a record -/

/-- The members that tell what a record holds of its own. -/
def ownMembers (r : LogRecord) (timestamp : String) (message : List Nat)
    (failure : Option (List Nat)) : List (List Nat × Document) :=
  [(codesOf "timestamp", .text (codesOf timestamp)), (codesOf "level", r.level),
    (codesOf "logger", r.logger), (codesOf "message", .text message),
    (codesOf "source", .object [
      (codesOf "file", r.path), (codesOf "line", r.line), (codesOf "function", r.function)])] ++
  failure.toList.map fun text => (codesOf "exception", .text text)

/-- The members of the object that a record is written as. -/
def members (r : LogRecord) (excluded : List (List Nat)) (timestamp : String) (message : List Nat)
    (failure : Option (List Nat)) : List (List Nat × Document) :=
  r.ownMembers timestamp message failure ++
  membersOf "form" ((r.shown excluded).filter fun extra => extra.1 ∈ contextAttributes) ++
  membersOf "extra" ((r.shown excluded).filter fun extra => extra.1 ∉ contextAttributes)

/-- A record whose moment, message and error can be written is written. -/
theorem toDocument_eq_ok {timestamp : String} {message : List Nat} {failure : Option (List Nat)}
    (htime : r.timestamp = .ok timestamp) (htext : r.text = .ok message)
    (hfailure : r.failureText = .ok failure) (excluded : List (List Nat)) :
    r.toDocument excluded = .ok (.object (r.members excluded timestamp message failure)) := by
  unfold toDocument members ownMembers
  rw [htime, htext, hfailure]
  simp [bind, Except.bind, pure, Except.pure, List.partition_eq_filter_filter,
    Function.comp_def]

section

variable (r : LogRecord) (excluded : List (List Nat)) (timestamp : String) (message : List Nat)
  (failure : Option (List Nat))

/-- The names that the object of a record may have. -/
def memberNames : List (List Nat) :=
  ["timestamp", "level", "logger", "message", "source", "exception", "form", "extra"].map codesOf

/-- The names of the members of a record are some of these, in their order. -/
theorem names_members : ((r.members excluded timestamp message failure).map (·.1)).Sublist
    memberNames := by
  have hown : ((r.ownMembers timestamp message failure).map (·.1)).Sublist
      (["timestamp", "level", "logger", "message", "source", "exception"].map codesOf) := by
    cases failure with
    | none =>
      exact List.sublist_append_left
        (["timestamp", "level", "logger", "message", "source"].map codesOf) [codesOf "exception"]
    | some text => exact List.Sublist.refl _
  have hpart (name : String) (inner : List (List Nat × Document)) :
      ((membersOf name inner).map (·.1)).Sublist [codesOf name] := by
    unfold membersOf
    split
    · exact List.nil_sublist _
    · exact List.Sublist.refl _
  rw [members, List.map_append, List.map_append]
  exact (hown.append (hpart "form" _)).append (hpart "extra" _)

/-- The names of the members of a record differ, and hold no surrogate pairs. -/
theorem memberNames_spec : memberNames.Nodup ∧ ∀ name ∈ memberNames, Unpaired name := by
  decide

/-- A record is written as a legible object. -/
theorem legible_members (hown : r.OwnLegible) (hmessage : IsText message)
    (hfailure : ∀ text ∈ failure, IsText text)
    (hshown : (Document.object (r.shown excluded)).Obeys .json) :
    (Document.object (r.members excluded timestamp message failure)).Obeys .legible := by
  have hsource : (Document.object [(codesOf "file", r.path), (codesOf "line", r.line),
      (codesOf "function", r.function)]).Obeys .legible :=
    ⟨trivial, Json.isText_codesOf _, hown.path, Json.isText_codesOf _, hown.line,
      Json.isText_codesOf _, hown.function, trivial⟩
  have hexception : ∀ member ∈ failure.toList.map fun text =>
      (codesOf "exception", Document.text text), member.2.Obeys .legible := by
    cases failure with
    | none => exact List.forall_mem_nil _
    | some text => exact List.forall_mem_singleton.2 (hfailure text rfl)
  have hpart (name : String) (p : List Nat × Document → Bool) :
      ∀ member ∈ membersOf name ((r.shown excluded).filter p), member.2.Obeys .legible := by
    unfold membersOf
    split
    · exact List.forall_mem_nil _
    · have hlegible := Json.membersObey_iff.1 (Json.legible_of_json hshown).2
      refine List.forall_mem_singleton.2 ⟨trivial, Json.membersObey_iff.2 fun extra hextra => ?_⟩
      exact hlegible extra (List.mem_filter.1 hextra).1
  have hvalues : ∀ member ∈ r.members excluded timestamp message failure,
      member.2.Obeys .legible := by
    simp only [members, ownMembers, List.forall_mem_append, List.forall_mem_cons]
    exact ⟨⟨⟨⟨Json.isText_codesOf _, hown.level, hown.logger, hmessage, hsource,
      List.forall_mem_nil _⟩, hexception⟩, hpart _ _⟩, hpart _ _⟩
  have hnames : ∀ name ∈ memberNames, IsText name := by decide
  refine ⟨trivial, Json.membersObey_iff.2 fun member hmember => ⟨?_, hvalues member hmember⟩⟩
  exact hnames _ ((r.names_members excluded timestamp message failure).subset
    (List.mem_map_of_mem hmember))

/-- A record reads back as its members, joined one by one. -/
theorem joined_members : (Document.object (r.members excluded timestamp message failure)).joined =
    .object (Json.joinMembers (r.members excluded timestamp message failure)) := by
  have hsublist := r.names_members excluded timestamp message failure
  rw [Document.joined, Json.mergeMembers_joinMembers]
  exact Json.nodup_joined (memberNames_spec.1.sublist hsublist) fun name hname =>
    memberNames_spec.2 name (hsublist.subset hname)

end

/-- The members of the object under a name; there are none where there is no object. -/
def part (members : List (List Nat × Document)) (name : String) : List (List Nat × Document) :=
  match members.lookup (codesOf name) with
  | some (.object inner) => inner
  | _ => []

/-- What is written as a part is joined as that part. -/
theorem joinMembers_membersOf {inner : List (List Nat × Document)}
    (h : (Document.object inner).joined = .object inner) (name : String) :
    Json.joinMembers (membersOf name inner) = membersOf name inner := by
  unfold membersOf
  split
  · rfl
  · rw [Json.joinMembers, h, Json.joinCodes_of_unpaired (Json.unpaired_codesOf name),
      Json.joinMembers]

/-- A part is found under its name, and stands for no other one. -/
theorem lookup_membersOf (inner : List (List Nat × Document)) (name : String) :
    (match (membersOf name inner).lookup (codesOf name) with
      | some (.object inner) => inner
      | _ => []) = inner ∧
    ∀ other, other ≠ codesOf name → (membersOf name inner).lookup other = none := by
  unfold membersOf
  cases inner with
  | nil => exact ⟨rfl, fun _ _ => rfl⟩
  | cons first rest =>
    simp only [List.isEmpty_cons, Bool.false_eq_true, if_false, List.lookup_cons, beq_self_eq_true]
    exact ⟨trivial, fun other hother => by simp [beq_eq_false_iff_ne.2 hother]⟩

/-- A selection of attributes is joined as it is, if all of them are. -/
theorem joined_filter {shown : List (List Nat × Document)}
    (hjson : (Document.object shown).Obeys .json) (hunpaired : Json.MembersObey .unpaired shown)
    (p : List Nat × Document → Bool) :
    (Document.object (shown.filter p)).joined = .object (shown.filter p) := by
  refine Json.joined_eq_self ⟨?_, ?_⟩ ⟨trivial, ?_⟩
  · exact hjson.1.sublist (List.filter_sublist.map _)
  · exact Json.membersObey_iff.2 fun extra hextra =>
      Json.membersObey_iff.1 hjson.2 extra (List.mem_filter.1 hextra).1
  · exact Json.membersObey_iff.2 fun extra hextra =>
      Json.membersObey_iff.1 hunpaired extra (List.mem_filter.1 hextra).1

section

variable (r : LogRecord) (excluded : List (List Nat)) (timestamp : String) (message : List Nat)
  (failure : Option (List Nat))

/-- Under the name of a part a record holds nothing of its own. -/
theorem lookup_ownMembers {name : String} (hname : name = "form" ∨ name = "extra") :
    (Json.joinMembers (r.ownMembers timestamp message failure)).lookup (codesOf name) = none := by
  rcases hname with rfl | rfl <;> cases failure <;> rfl

/-- The parts of a record that is read back are the attributes that are shown, those that identify a
form and the others, if these hold no surrogate pairs. -/
theorem parts_members (hjson : (Document.object (r.shown excluded)).Obeys .json)
    (hunpaired : Json.MembersObey .unpaired (r.shown excluded)) :
    let members := Json.joinMembers (r.members excluded timestamp message failure)
    part members "form" = (r.shown excluded).filter (fun extra => extra.1 ∈ contextAttributes) ∧
      part members "extra" =
        (r.shown excluded).filter fun extra => extra.1 ∉ contextAttributes := by
  intro members
  have hform := joinMembers_membersOf (joined_filter hjson hunpaired
    fun extra => extra.1 ∈ contextAttributes) "form"
  have hextra := joinMembers_membersOf (joined_filter hjson hunpaired
    fun extra => extra.1 ∉ contextAttributes) "extra"
  have hmembers : members = Json.joinMembers (r.ownMembers timestamp message failure) ++
      membersOf "form" ((r.shown excluded).filter fun extra => extra.1 ∈ contextAttributes) ++
      membersOf "extra" ((r.shown excluded).filter fun extra => extra.1 ∉ contextAttributes) := by
    rw [← hform, ← hextra, ← Json.joinMembers_append, ← Json.joinMembers_append]
    rfl
  have hother : codesOf "form" ≠ codesOf "extra" := by decide
  unfold part
  rw [hmembers]
  simp only [List.lookup_append, r.lookup_ownMembers timestamp message failure (.inl rfl),
    r.lookup_ownMembers timestamp message failure (.inr rfl), Option.none_or]
  rw [(lookup_membersOf _ "form").2 _ hother.symm, (lookup_membersOf _ "extra").2 _ hother,
    Option.or_none, Option.none_or]
  exact ⟨(lookup_membersOf _ "form").1, (lookup_membersOf _ "extra").1⟩

/-- The message of a record that is read back is its message, if that holds no surrogate pairs. -/
theorem lookup_message (hmessage : Unpaired message) :
    (Json.joinMembers (r.members excluded timestamp message failure)).lookup (codesOf "message") =
      some (.text message) := by
  rw [members, List.append_assoc, Json.joinMembers_append, List.lookup_append]
  have hown : (Json.joinMembers (r.ownMembers timestamp message failure)).lookup
      (codesOf "message") = some (.text (Json.joinCodes message)) := by
    cases failure <;> rfl
  rw [hown, Json.joinCodes_of_unpaired hmessage]
  rfl

end

/-! ## Lines -/

/-- A log record is one line that reads back. Let attributes with JSON documents be attached to a
record as it is made, so that its moment and its message can be written and any document that
replaces its error has a text. Let neither the message nor an attribute that is shown hold a
surrogate pair in two halves, in its name or in its document. Then the record is written as visible
ASCII characters only, and these read back as an object with the message. An attribute stands in its
part `form` just if it was attached, is neither reserved nor excluded and identifies a form, in its
part `extra` just if it was attached, is neither reserved nor excluded and does not, and in both
together none stands twice. -/
theorem line_reads_back {timestamp : String} {message : List Nat} (hr : r.IsMade)
    (hextras : (Document.object extras).Obeys .json)
    (hunpaired : ∀ extra ∈ extras, extra.1 ∉ reservedAttributes → extra.1 ∉ excluded →
      Unpaired extra.1 ∧ extra.2.Obeys .unpaired)
    (htime : (r.attachAll extras).timestamp = .ok timestamp)
    (htext : (r.attachAll extras).text = .ok message) (hmessage : IsText message ∧ Unpaired message)
    (herror : ∀ d, (codesOf "exc_info", d) ∈ extras → d.isTrue = true →
      ∃ text, attachedText d = .ok text) :
    ∃ line members, (r.attachAll extras).toLine excluded = .ok line ∧
      (∀ n ∈ line, Json.IsVisible n) ∧ readCodes line = .ok (.object members) ∧
      (members.map (·.1)).Nodup ∧ members.lookup (codesOf "message") = some (.text message) ∧
      ((part members "form" ++ part members "extra").map (·.1)).Nodup ∧
      ∀ name d,
        ((name, d) ∈ part members "form" ↔ (name, d) ∈ extras ∧
          name ∉ reservedAttributes ∧ name ∉ excluded ∧ name ∈ contextAttributes) ∧
        ((name, d) ∈ part members "extra" ↔ (name, d) ∈ extras ∧
          name ∉ reservedAttributes ∧ name ∉ excluded ∧ name ∉ contextAttributes) := by
  obtain ⟨failure, hfailure, hfailureText⟩ := exists_failureText hr herror
  have hshown := shown_attachAll hr.attributes hextras.1 excluded
  have hshownJson : (Document.object ((r.attachAll extras).shown excluded)).Obeys .json := by
    rw [hshown]
    refine ⟨hextras.1.sublist (List.filter_sublist.map _), ?_⟩
    exact Json.membersObey_iff.2 fun extra hextra =>
      Json.membersObey_iff.1 hextras.2 extra (List.mem_filter.1 hextra).1
  have hshownUnpaired : Json.MembersObey .unpaired ((r.attachAll extras).shown excluded) := by
    rw [hshown]
    refine Json.membersObey_iff.2 fun extra hextra => ?_
    obtain ⟨hmem, hkept⟩ := List.mem_filter.1 hextra
    obtain ⟨hreserved, hexcluded⟩ := of_decide_eq_true hkept
    exact hunpaired extra hmem hreserved hexcluded
  have hown : (r.attachAll extras).OwnLegible := hr.toOwnLegible.attachAll fun extra hextra =>
    Json.legible_of_json (Json.membersObey_iff.1 hextras.2 extra hextra).2
  have hlegible := legible_members _ excluded timestamp message failure hown hmessage.1
    hfailureText hshownJson
  have hvisible := Json.visible_line
    (.object ((r.attachAll extras).members excluded timestamp message failure))
  have hread := Json.read_print Json.isBlank_line hlegible
  rw [joined_members] at hread
  have hjson := Json.json_of_read (fun n hn => lt_trans (hvisible n hn).2 (by decide)) hread
  obtain ⟨hform, hextra⟩ := parts_members _ excluded timestamp message failure hshownJson
    hshownUnpaired
  refine ⟨_, _, congrArg (Except.map _) (toDocument_eq_ok htime htext hfailure excluded), hvisible,
    hread, hjson.1, lookup_message _ _ _ _ _ hmessage.2, ?_, fun name d => ⟨?_, ?_⟩⟩
  · have hparts := List.filter_append_perm (fun extra => decide (extra.1 ∈ contextAttributes))
      ((r.attachAll extras).shown excluded)
    simp only [← decide_not] at hparts
    rw [hform, hextra]
    exact (hparts.map Prod.fst).nodup_iff.2 hshownJson.1
  · rw [hform, List.mem_filter, hshown, List.mem_filter, decide_eq_true_iff, decide_eq_true_iff,
      and_assoc, and_assoc]
  · rw [hextra, List.mem_filter, hshown, List.mem_filter, decide_eq_true_iff, decide_eq_true_iff,
      and_assoc, and_assoc]

/-- A record on which a loader reports. -/
def loaderRecord : LogRecord where
  logger := .text (codesOf "jobform.resolver")
  level := .text (codesOf "INFO")
  path := .text (codesOf "/test/file.py")
  line := .int 42
  message := .text (codesOf "Test message")
  created := .int 0

/-- The record as it is made. -/
theorem isMade_loaderRecord : loaderRecord.IsMade where
  logger := Json.isText_codesOf _
  level := Json.isText_codesOf _
  path := Json.isText_codesOf _
  line := (by decide : (Nat.toDigits 10 42).length ≤ Json.digitLimit)
  function := trivial
  failure := nofun
  attributes := rfl
  attached := rfl

/-- Attributes with a line break, quotes, characters beyond ASCII and half of a surrogate pair, one
that replaces the message, one that replaces the error and one to be left out. -/
def forged : List (List Nat × Document) := Json.named [
  ("form_id", .text (codesOf "a\nb")), ("reason", .array [.text (0xDC00 :: codesOf "\"é😀")]),
  ("msg", .text (codesOf "100%")), ("exc_info", .array [.null, .null, .null]),
  ("secret", .bool true)]

/-- Such attributes do not break the line; the one under a reserved name is not shown, and neither
is an excluded one. -/
theorem line_reads_back_forged :
    ∃ line members, (loaderRecord.attachAll forged).toLine [codesOf "secret"] = .ok line ∧
      (∀ n ∈ line, Json.IsVisible n) ∧ readCodes line = .ok (.object members) ∧
      members.lookup (codesOf "message") = some (.text (codesOf "100%")) ∧
      (codesOf "form_id", .text (codesOf "a\nb")) ∈ part members "form" ∧
      (codesOf "reason", .array [.text (0xDC00 :: codesOf "\"é😀")]) ∈ part members "extra" ∧
      ∀ d, (codesOf "secret", d) ∉ part members "extra" := by
  have hjson : (Document.object forged).Obeys .json := by
    simp only [forged, Json.named, List.map_cons, List.map_nil, Document.Obeys, Json.MembersObey,
      Json.ItemsObey, Json.Law.json, Json.Law.read]
    decide
  have hunpaired : Json.MembersObey .unpaired forged := by
    simp only [forged, Json.named, List.map_cons, List.map_nil, Document.Obeys, Json.MembersObey,
      Json.ItemsObey, Json.Law.unpaired]
    decide
  have herror : ∀ d, (codesOf "exc_info", d) ∈ forged → d.isTrue = true →
      ∃ text, attachedText d = .ok text := by
    intro d hmem _
    obtain rfl : d = .array [.null, .null, .null] := by
      simpa [forged, Json.named, codesOf, Json.codes] using hmem
    exact ⟨codesOf "NoneType: None", rfl⟩
  obtain ⟨line, members, hline, hvisible, hread, -, hmessage, -, hparts⟩ :=
    @line_reads_back loaderRecord forged [codesOf "secret"] _ (codesOf "100%") isMade_loaderRecord
      hjson (fun extra hextra _ _ => Json.membersObey_iff.1 hunpaired extra hextra) rfl rfl
      ⟨Json.isText_codesOf _, Json.unpaired_codesOf _⟩ herror
  refine ⟨line, members, hline, hvisible, hread, hmessage,
    (hparts _ _).1.2 ⟨.head _, by decide⟩, (hparts _ _).2.2 ⟨.tail _ (.head _), by decide⟩, ?_⟩
  intro d hmem
  exact ((hparts _ _).2.1 hmem).2.2.1 (.head _)

/-- An attribute with a surrogate pair in two halves. -/
def halvesExtra : List (List Nat × Document) :=
  [(codesOf "x", .text [0xD800, 0xDC00])]

/-- A record whose error is replaced by a number has no line, though its message and its moment can
be written. Two halves of a surrogate pair in an attribute are read back as one code point. -/
theorem line_of_hostile :
    let numbered := Json.named [("exc_info", .int 1)]
    loaderRecord.IsMade ∧ (Document.object numbered).Obeys .json ∧
      (Document.object halvesExtra).Obeys .json ∧
      (∃ timestamp, (loaderRecord.attachAll numbered).timestamp = .ok timestamp) ∧
      (∃ message, (loaderRecord.attachAll numbered).text = .ok message) ∧
      (∀ excluded line, (loaderRecord.attachAll numbered).toLine excluded ≠ .ok line) ∧
      ∃ line members, (loaderRecord.attachAll halvesExtra).toLine [] = .ok line ∧
        readCodes line = .ok (.object members) ∧
        part members "extra" = [(codesOf "x", .text [0x10000])] := by
  intro numbered
  have hnumbered : (Document.object numbered).Obeys .json :=
    ⟨List.nodup_singleton _, Json.isText_codesOf _,
      (by decide : (Nat.toDigits 10 1).length ≤ Json.digitLimit), trivial⟩
  have hhalves : (Document.object halvesExtra).Obeys .json := by
    simp only [halvesExtra, List.map_cons, List.map_nil, Document.Obeys, Json.MembersObey,
      Json.Law.json, Json.Law.read]
    decide
  refine ⟨isMade_loaderRecord, hnumbered, hhalves, ⟨_, rfl⟩, ⟨_, rfl⟩, ?_, ?_⟩
  · intro excluded line h
    cases h
  · have hlegible := legible_members (loaderRecord.attachAll halvesExtra) []
      "1970-01-01T00:00:00.000Z" (codesOf "Test message") none
      (isMade_loaderRecord.toOwnLegible.attachAll fun extra hextra =>
        Json.legible_of_json (Json.membersObey_iff.1 hhalves.2 extra hextra).2)
      (Json.isText_codesOf _) (fun _ h => absurd h (Option.not_mem_none _)) hhalves
    have hread := Json.read_print Json.isBlank_line hlegible
    rw [joined_members] at hread
    refine ⟨_, _, congrArg (Except.map _) (toDocument_eq_ok rfl rfl rfl []), hread, ?_⟩
    rfl

end LogRecord

end SyncForm
