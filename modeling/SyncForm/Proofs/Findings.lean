import SyncForm.Proofs.Hidden
import SyncForm.Proofs.Nesting
import SyncForm.Proofs.RoundTrip

/-!
# What a validation finds

A validation finds a message or none for each field that it looks at, in order, up to the first fault
of a rule (`Form.findings`). What it finds is what it marks the keys of the fields with
(`Form.Laid.model_validate`), and where it ends without a fault it looks at all fields shown and
answers with the messages that it finds. In the task form every key belongs to one field, so after a
validation the keys of a field have the message found for it, or the one from before where the field
was not looked at (`Form.Laid.indicator?_validate`).
-/

namespace SyncForm

/-- The message that stands beside a key. -/
def Model.indicator? (m : Model) (key : String) : Option String :=
  (m.find? key).bind (·.validationError)

/-- A field that a validation looked at, with the message that it found, if any. -/
abbrev Finding := Descriptor × Option String

namespace Model

/-- A model with what is found marked, in order. -/
def markedAll (m : Model) (found : List Finding) : Model :=
  found.foldl (fun m finding => m.marked finding.1.modelKeys finding.2) m

/-- Marking keys puts the message on their entries and leaves all others. -/
theorem find?_marked (m : Model) (keys : List String) (message : Option String) (key : String) :
    (m.marked keys message).find? key =
      if key ∈ keys then (m.find? key).map fun e => { e with validationError := message }
      else m.find? key := by
  induction keys generalizing m with
  | nil => rfl
  | cons k rest ih =>
    have hrest : (m.marked (k :: rest) message).find? key = _ :=
      ih (m.adjust k fun e => { e with validationError := message })
    rw [hrest, find?_adjust]
    by_cases hk : k = key
    · subst hk
      have hmem : k ∈ k :: rest := .head _
      rw [if_pos rfl, if_pos hmem, Option.map_map]
      exact ite_self _
    · rw [if_neg hk]
      simp only [List.mem_cons, Ne.symm hk, false_or]

/-- Marking keys keeps them held. -/
theorem holds_marked (m : Model) (keys : List String) (message : Option String) (key : String) :
    (m.marked keys message).holds key = m.holds key := by
  have hfind := congrArg Option.isSome (m.find?_marked keys message key)
  refine hfind.trans ?_
  split
  · exact Option.isSome_map
  · rfl

/-- The message that stands beside a held key after keys were marked. -/
theorem indicator?_marked {m : Model} {key : String} (h : m.holds key = true) (keys : List String)
    (message : Option String) :
    (m.marked keys message).indicator? key = if key ∈ keys then message else m.indicator? key := by
  obtain ⟨e, he⟩ := Option.isSome_iff_exists.1 h
  have he : m.find? key = some e := he
  rw [indicator?, find?_marked]
  split
  · rw [he]
    rfl
  · rfl

/-- A key of no field that was looked at keeps its message. -/
theorem indicator?_markedAll_of_unowned {m : Model} {key : String} {found : List Finding}
    (h : ∀ finding ∈ found, key ∉ finding.1.modelKeys) :
    (m.markedAll found).indicator? key = m.indicator? key := by
  induction found generalizing m with
  | nil => rfl
  | cons finding rest ih =>
    refine (ih fun other hother => h other (.tail _ hother)).trans ?_
    rw [indicator?, find?_marked, if_neg (h finding (.head _))]
    rfl

/-- A held key has the message that was found for its field, if all findings on the key agree. -/
theorem indicator?_markedAll {m : Model} {key : String} (hheld : m.holds key = true)
    {found : List Finding} {message : Option String}
    (hagree : ∀ finding ∈ found, key ∈ finding.1.modelKeys → finding.2 = message)
    (hfound : ∃ finding ∈ found, key ∈ finding.1.modelKeys) :
    (m.markedAll found).indicator? key = message := by
  induction found generalizing m with
  | nil =>
    obtain ⟨finding, hmem, -⟩ := hfound
    cases hmem
  | cons first rest ih =>
    have hrest := fun other hother => hagree other (.tail _ hother)
    by_cases hlater : ∃ finding ∈ rest, key ∈ finding.1.modelKeys
    · exact ih ((m.holds_marked first.1.modelKeys first.2 key).trans hheld) hrest hlater
    · -- No later finding concerns the key, so this one marks it.
      have hunowned : ∀ finding ∈ rest, key ∉ finding.1.modelKeys :=
        fun finding hmem hkey => hlater ⟨finding, hmem, hkey⟩
      obtain ⟨finding, hmem, hkey⟩ := hfound
      rcases List.mem_cons.1 hmem with rfl | hmem
      · refine (indicator?_markedAll_of_unowned hunowned).trans ?_
        rw [indicator?_marked hheld, if_pos hkey]
        exact hagree finding (.head _) hkey
      · exact absurd hkey (hunowned finding hmem)

end Model

/-! ## Findings -/

namespace Form

/-- What is found among some fields of a model, in order, up to the first fault. -/
def findingsAmong (m : Model) : List Descriptor → List Finding
  | [] => []
  | d :: rest =>
    if d.modelKeys.isEmpty then findingsAmong m rest
    else
      match complaint d (d.shownValue m) m with
      | .error _ => []
      | .ok message => (d, message) :: findingsAmong m rest

/-- What a validation of a form finds. -/
def findings (f : Form) : List Finding :=
  match f.visibleFields with
  | .error _ => []
  | .ok shown => findingsAmong f.resolver.model shown

/-- Models on which all complaints are the same give the same findings. -/
theorem findingsAmong_congr {m m' : Model} {fields : List Descriptor}
    (h : ∀ d ∈ fields, complaint d (d.shownValue m') m' = complaint d (d.shownValue m) m) :
    findingsAmong m' fields = findingsAmong m fields := by
  induction fields with
  | nil => rfl
  | cons d rest ih =>
    have hrest := ih fun other hother => h other (.tail _ hother)
    simp only [findingsAmong, hrest, h d (.head _)]

/-- What is found for a field is the complaint about it. -/
theorem complaint_of_finding {m : Model} {fields : List Descriptor} {d : Descriptor}
    {message : Option String} (h : (d, message) ∈ findingsAmong m fields) :
    d ∈ fields ∧ complaint d (d.shownValue m) m = .ok message := by
  induction fields with
  | nil => cases h
  | cons first rest ih =>
    unfold findingsAmong at h
    split at h
    · exact ⟨.tail _ (ih h).1, (ih h).2⟩
    · split at h
      · cases h
      · next found hfound =>
        rcases List.mem_cons.1 h with heq | hrest
        · cases heq
          exact ⟨.head _, hfound⟩
        · exact ⟨.tail _ (ih hrest).1, (ih hrest).2⟩

/-- Checking fields that are covered marks what is found. -/
theorem model_checkFields {plan : Plan} {r : Resolver} {fields : List Descriptor}
    (hready : r.ready = true) (hcovers : plan.Covers r fields) :
    (checkFields plan r fields).1.model = r.model.markedAll (findingsAmong r.model fields) := by
  induction fields generalizing r with
  | nil => rfl
  | cons d rest ih =>
    have hothers : plan.Covers r rest := fun other hother => hcovers other (.tail _ hother)
    rw [checkFields_cons hready hcovers]
    unfold findingsAmong
    split
    · exact ih hready hothers
    · cases complaint d (d.shownValue r.model) r.model with
      | error fault => rfl
      | ok message =>
        -- The others are found at fault as on this model.
        have hfound : findingsAmong (r.model.marked d.modelKeys message) rest =
            findingsAmong r.model rest :=
          findingsAmong_congr fun other _ => complaint_marked other r.model d.modelKeys message
        have hrest := ih (r := { r with model := r.model.marked d.modelKeys message }) hready hothers
        dsimp only at hrest
        rw [hfound] at hrest
        cases message <;> exact hrest

/-- A verdict without a fault looks at every field that has keys, and answers with the messages
found. -/
theorem verdict_eq_ok {m : Model} {fields : List Descriptor} {issues : List (String × String)}
    (h : verdict m fields = .ok issues) :
    (∀ d ∈ fields, d.modelKeys ≠ [] → ∃ message, (d, message) ∈ findingsAmong m fields) ∧
      ∀ issue, issue ∈ issues ↔
        ∃ d message, (d, some message) ∈ findingsAmong m fields ∧ issue = (d.key, message) := by
  induction fields generalizing issues with
  | nil =>
    cases h
    refine ⟨fun d hd => absurd hd List.not_mem_nil, fun issue => iff_of_false List.not_mem_nil ?_⟩
    rintro ⟨d, message, hmem, -⟩
    exact absurd hmem List.not_mem_nil
  | cons first rest ih =>
    unfold verdict at h
    unfold findingsAmong
    by_cases hfirst : first.modelKeys.isEmpty = true
    · rw [if_pos hfirst] at h
      rw [if_pos hfirst]
      obtain ⟨hlooked, hissues⟩ := ih h
      refine ⟨fun d hd hkeys => ?_, hissues⟩
      rcases List.mem_cons.1 hd with rfl | hrest
      · exact absurd (List.isEmpty_iff.1 hfirst) hkeys
      · exact hlooked d hrest hkeys
    · rw [if_neg hfirst] at h
      rw [if_neg hfirst]
      cases hanswer : complaint first (first.shownValue m) m with
      | error fault =>
        rw [hanswer] at h
        cases h
      | ok message =>
        rw [hanswer] at h
        dsimp only at h ⊢
        have hcons {others : List (String × String)} (hothers : verdict m rest = .ok others) (d)
            (hd : d ∈ first :: rest) (hkeys : d.modelKeys ≠ []) :
            ∃ found, (d, found) ∈ (first, message) :: findingsAmong m rest := by
          rcases List.mem_cons.1 hd with rfl | hrest
          · exact ⟨message, .head _⟩
          · obtain ⟨found, hfound⟩ := (ih hothers).1 d hrest hkeys
            exact ⟨found, .tail _ hfound⟩
        cases message with
        | none =>
          refine ⟨hcons h, fun issue => ((ih h).2 issue).trans ?_⟩
          simp
        | some text =>
          obtain ⟨others, hothers, rfl⟩ := Except.of_map_eq_ok h
          refine ⟨hcons hothers, fun issue => ?_⟩
          rw [List.mem_cons, (ih hothers).2 issue]
          simp [or_and_right, exists_or]

end Form

/-! ## The task form -/

namespace Template

variable (disabled : List String) {d e : Descriptor} {key : String}

/-- The keys of the fields of the task form are exported. -/
theorem mem_paramKeys (hd : d ∈ taskForm disabled) (hkey : key ∈ d.modelKeys) : key ∈ paramKeys := by
  -- The keys are the same in all task forms, so those of one are looked through.
  have hall : ∀ e ∈ (taskForm []).map Descriptor.unloaded, ∀ key ∈ e.modelKeys, key ∈ paramKeys := by
    decide +kernel
  rw [← unloaded_taskForm disabled] at hall
  exact hall d.unloaded (List.mem_map_of_mem hd) key hkey

/-- No two fields of the task form have the same key. -/
theorem eq_of_key_eq (hd : d ∈ taskForm disabled) (he : e ∈ taskForm disabled)
    (hkey : d.key = e.key) : d = e :=
  List.inj_on_of_nodup_map (nodup_keys disabled) hd he hkey

/-- No two fields of the task form have a model key in common. -/
theorem eq_of_mem_modelKeys (hd : d ∈ taskForm disabled) (he : e ∈ taskForm disabled)
    (hkey : key ∈ d.modelKeys) (hkey' : key ∈ e.modelKeys) : d = e := by
  have hall : ∀ d ∈ (taskForm []).map Descriptor.unloaded, ∀ key ∈ d.modelKeys,
      ∀ e ∈ (taskForm []).map Descriptor.unloaded, key ∈ e.modelKeys → d.key = e.key := by
    decide +kernel
  rw [← unloaded_taskForm disabled] at hall
  exact eq_of_key_eq disabled hd he (hall d.unloaded (List.mem_map_of_mem hd) key hkey e.unloaded
    (List.mem_map_of_mem he) hkey')

end Template

namespace Form.Laid

open Template

variable {disabled : List String} {f : Form} {d : Descriptor} {key : String}
  {message : Option String} {issues : List (String × String)}

/-- A validation finds what is found among the fields that the layout shows. -/
theorem findings_eq (h : f.Laid disabled) :
    f.findings = findingsAmong f.resolver.model (shownFields disabled f.resolver.model) := by
  unfold findings
  rw [h.visibleFields]

/-- What is found for a field of the task form is the complaint about it. -/
theorem finding_spec (h : f.Laid disabled) (hfound : (d, message) ∈ f.findings) :
    d ∈ taskForm disabled ∧ d ∈ shownFields disabled f.resolver.model ∧
      complaint d (d.shownValue f.resolver.model) f.resolver.model = .ok message := by
  rw [h.findings_eq] at hfound
  obtain ⟨hshown, hcomplaint⟩ := complaint_of_finding hfound
  exact ⟨(List.mem_filter.1 hshown).1, hshown, hcomplaint⟩

/-- A field is found to have one message at most. -/
theorem finding_unique (h : f.Laid disabled) {message' : Option String}
    (hfound : (d, message) ∈ f.findings) (hfound' : (d, message') ∈ f.findings) :
    message = message' :=
  Except.ok.inj ((h.finding_spec hfound).2.2.symm.trans (h.finding_spec hfound').2.2)

/-- A validation marks what it finds. -/
theorem model_validate (h : f.Laid disabled) :
    f.validate.1.resolver.model = f.resolver.model.markedAll f.findings := by
  rw [h.findings_eq]
  unfold validate
  rw [h.visibleFields]
  exact model_checkFields h.sound.tracked.ready (h.covers_shownFields _)

/-- After a validation the keys of a field have the message that it found for the field, or the one
from before if it did not look at the field. -/
theorem indicator?_validate (h : f.Laid disabled) (hd : d ∈ taskForm disabled)
    (hkey : key ∈ d.modelKeys) (hheld : f.resolver.model.holds key = true) :
    (∀ message, (d, message) ∈ f.findings →
      f.validate.1.resolver.model.indicator? key = message) ∧
    ((∀ message, (d, message) ∉ f.findings) →
      f.validate.1.resolver.model.indicator? key = f.resolver.model.indicator? key) := by
  have howner {finding : Finding} (hmem : finding ∈ f.findings)
      (hkey' : key ∈ finding.1.modelKeys) : finding.1 = d :=
    eq_of_mem_modelKeys disabled (h.finding_spec hmem).1 hd hkey' hkey
  rw [h.model_validate]
  constructor
  · intro message hfound
    refine Model.indicator?_markedAll hheld ?_ ⟨_, hfound, hkey⟩
    rintro ⟨e, found⟩ hmem hkey'
    obtain rfl : e = d := howner hmem hkey'
    exact h.finding_unique hmem hfound
  · intro hnone
    refine Model.indicator?_markedAll_of_unowned ?_
    rintro ⟨e, found⟩ hmem hkey'
    obtain rfl : e = d := howner hmem hkey'
    exact hnone found hmem

/-- The result of a validation names a field with the message that was found for it, and no other
field. -/
theorem valueOf?_issues (h : f.Laid disabled) (hresult : f.validate.2 = .ok issues)
    (hd : d ∈ taskForm disabled) (text : String) :
    Assoc.valueOf? issues d.key = some text ↔ (d, some text) ∈ f.findings := by
  have hverdict := h.validate_eq_verdict.symm.trans hresult
  have hmem := (verdict_eq_ok hverdict).2
  rw [← h.findings_eq] at hmem
  have howner {text : String} (hissue : (d.key, text) ∈ issues) : (d, some text) ∈ f.findings := by
    obtain ⟨e, found, hfound, heq⟩ := (hmem _).1 hissue
    obtain ⟨hkeys, rfl⟩ := Prod.mk.inj heq
    rwa [eq_of_key_eq disabled hd (h.finding_spec hfound).1 hkeys]
  constructor
  · exact fun hvalue => howner (Assoc.mem_of_valueOf? hvalue)
  · intro hfound
    have hissue : (d.key, text) ∈ issues := (hmem _).2 ⟨d, text, hfound, rfl⟩
    obtain ⟨other, hother, hmem'⟩ := Assoc.exists_valueOf? hissue
    rw [hother, h.finding_unique (howner hmem') hfound]

/-- A validation without a fault looks at every field shown that has keys. -/
theorem exists_finding (h : f.Laid disabled) (hresult : f.validate.2 = .ok issues)
    (hd : d ∈ shownFields disabled f.resolver.model) (hkeys : d.modelKeys ≠ []) :
    ∃ message, (d, message) ∈ f.findings := by
  rw [h.findings_eq]
  exact (verdict_eq_ok (h.validate_eq_verdict.symm.trans hresult)).1 d hd hkeys

end Form.Laid

end SyncForm
