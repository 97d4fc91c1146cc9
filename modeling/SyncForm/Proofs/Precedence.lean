import SyncForm.Proofs.ProjectFile

/-!
# Where a setting comes from

Settings are made setting by setting: what is given under one name decides what they hold under
that name, and nothing else does (`Settings.held_congr`), and they can be made just where they can
of each given value alone (`Settings.exists_ofGiven_iff_alone`). So it is enough to follow one name.
The environment, the section of a project file and the usual values take turns as `Settings.chosen`
says: the reading of the environment disregards the case of a variable, the test that makes the
section give way does not. `Settings.precedence` says what that comes to for every environment and
every section; `Settings.precedence_misspelled` is an environment that defines a setting and does
not decide it.
-/

namespace SyncForm

namespace Assoc

variable {α : Type} {a b : Assoc α} {key : String}

/-- Where no key is listed twice, a selection holds what is selected of what the keys hold. -/
theorem valueOf?_filter (p : String × α → Bool) (ha : (keys a).Nodup) :
    valueOf? (a.filter p) key = (valueOf? a key).filter fun v => p (key, v) := by
  induction a with
  | nil => rfl
  | cons kv rest ih =>
    obtain ⟨k, v⟩ := kv
    obtain ⟨hk, hrest⟩ := List.nodup_cons.1 ha
    by_cases hkey : k = key
    · subst hkey
      by_cases hp : p (k, v) = true
      · simp [hp, valueOf?, Option.filter]
      · simp [hp, valueOf?, Option.filter, ih hrest, valueOf?_eq_none hk]
    · by_cases hp : p (k, v) = true
      · simp [hp, valueOf?, hkey, ih hrest]
      · simp [hp, valueOf?, hkey, ih hrest]

/-- Writing several keys, none of them twice, changes what these keys hold. -/
theorem valueOf?_putAll_of_nodup (a : Assoc α) (hb : (keys b).Nodup) :
    valueOf? (putAll a b) key = (valueOf? b key).or (valueOf? a key) := by
  induction b generalizing a with
  | nil => rfl
  | cons kv rest ih =>
    obtain ⟨k, v⟩ := kv
    obtain ⟨hk, hrest⟩ := List.nodup_cons.1 hb
    have hput : valueOf? (putAll a ((k, v) :: rest)) key =
        (valueOf? rest key).or (valueOf? (put a k v) key) := ih (put a k v) hrest
    rw [hput, valueOf?_put, valueOf?]
    by_cases hkey : k = key
    · subst hkey
      simp [valueOf?_eq_none hk]
    · simp [hkey]

/-- Values that are found for some keys one after the other are held under these keys. -/
theorem valueOf?_of_mapM {ε : Type} {f : String → Except ε α} {names : List String}
    (h : names.mapM (fun name => (f name).map fun v => (name, v)) = .ok a) :
    keys a = names ∧ ∀ name ∈ names, ∃ v, f name = .ok v ∧ valueOf? a name = some v := by
  induction names generalizing a with
  | nil =>
    cases h
    exact ⟨rfl, fun _ hname => absurd hname List.not_mem_nil⟩
  | cons first rest ih =>
    rw [List.mapM_cons] at h
    cases hfirst : f first with
    | error cause => rw [hfirst] at h; cases h
    | ok v =>
      cases hrest : rest.mapM fun name => (f name).map fun v => (name, v) with
      | error cause => rw [hfirst, hrest] at h; cases h
      | ok found =>
        rw [hfirst, hrest] at h
        cases h
        obtain ⟨hkeys, hfound⟩ := ih hrest
        refine ⟨congrArg (first :: ·) hkeys, fun name hname => ?_⟩
        by_cases hsame : first = name
        · subst hsame
          exact ⟨v, hfirst, if_pos rfl⟩
        · have hmem : name ∈ rest := (List.mem_cons.1 hname).resolve_left (Ne.symm hsame)
          obtain ⟨w, hw, hheld⟩ := hfound name hmem
          exact ⟨w, hw, (if_neg hsame).trans hheld⟩

end Assoc

namespace Checked

variable {α β : Type} {given given' : Assoc Value} {name : String} {usual : α}
  {check : Value → Checked α}

/-- Two checks succeed together just where each of them does. -/
theorem both_eq_ok {a : Checked α} {b : Checked β} {x : α} {y : β} :
    a.both b = .ok (x, y) ↔ a = .ok x ∧ b = .ok y := by
  cases a <;> cases b <;> simp [both]

/-- An optional field depends on what its name holds only. -/
theorem optional_congr (h : Assoc.valueOf? given name = Assoc.valueOf? given' name) :
    optional given [name] usual check = optional given' [name] usual check := by
  simp [optional, named?, h]

end Checked

namespace Settings

/-- The settings as plain data. -/
def toMembers (s : Settings) : Assoc Value := [
  (baseUrlName, .text s.apiBaseUrl),
  (tokenName, (s.apiToken.map .text).getD .null),
  (timeoutName, (s.lookupTimeout.map .float).getD .null),
  (levelName, .text s.logLevel),
  (formatName, .text s.logFormat),
  (logFileName, (s.logFile.map .text).getD .null),
  (disabledName, .list (s.disabledTypes.map .text))]

/-- What the settings hold under the name of a setting. -/
def held (s : Settings) (setting : String) : Value :=
  (Assoc.valueOf? s.toMembers setting).getD .null

/-- Settings are made of given values just where each of the seven fields is. -/
theorem ofGiven_eq_ok {given : Assoc Value} {s : Settings} :
    ofGiven given [] = .ok s ↔
      let usual : Settings := {}
      Checked.optional given [baseUrlName] usual.apiBaseUrl Checked.text = .ok s.apiBaseUrl ∧
      Checked.optional given [tokenName] usual.apiToken (Checked.nullable Checked.text) =
        .ok s.apiToken ∧
      Checked.optional given [timeoutName] usual.lookupTimeout (Checked.nullable positive) =
        .ok s.lookupTimeout ∧
      Checked.optional given [levelName] usual.logLevel (oneOf levelName levels Text.upper) =
        .ok s.logLevel ∧
      Checked.optional given [formatName] usual.logFormat
        (oneOf formatName formats Text.lowerLatin) = .ok s.logFormat ∧
      Checked.optional given [logFileName] usual.logFile (Checked.nullable Checked.text) =
        .ok s.logFile ∧
      ∃ codes, Checked.optional given [disabledName] usual.disabledTypes
        (Checked.list Checked.text) = .ok codes ∧ codes.map Text.upper = s.disabledTypes := by
  constructor
  · intro h
    unfold ofGiven at h
    simp only [List.isEmpty_nil, if_true, bind, Except.bind] at h
    split at h
    · cases h
    · next fields hfields =>
      obtain ⟨url, token, timeout, level, format, file, codes, done⟩ := fields
      simp only [Checked.both_eq_ok] at hfields
      cases h
      obtain ⟨hurl, htoken, htimeout, hlevel, hformat, hfile, hcodes, -⟩ := hfields
      exact ⟨hurl, htoken, htimeout, hlevel, hformat, hfile, codes, hcodes, rfl⟩
  · rintro ⟨hurl, htoken, htimeout, hlevel, hformat, hfile, codes, hcodes, hupper⟩
    have hfields := Checked.both_eq_ok.2 ⟨hurl, Checked.both_eq_ok.2 ⟨htoken, Checked.both_eq_ok.2
      ⟨htimeout, Checked.both_eq_ok.2 ⟨hlevel, Checked.both_eq_ok.2 ⟨hformat, Checked.both_eq_ok.2
      ⟨hfile, Checked.both_eq_ok.2 ⟨hcodes, (rfl : (.ok () : Checked Unit) = .ok ())⟩⟩⟩⟩⟩⟩⟩
    unfold ofGiven
    simp only [List.isEmpty_nil, if_true, hfields, bind, Except.bind, hupper]
    rfl

/-- Settings can be made of given values just where each of the seven fields can. -/
theorem exists_ofGiven {given : Assoc Value} :
    (∃ s, ofGiven given [] = .ok s) ↔
      let usual : Settings := {}
      (∃ x, Checked.optional given [baseUrlName] usual.apiBaseUrl Checked.text = .ok x) ∧
      (∃ x, Checked.optional given [tokenName] usual.apiToken (Checked.nullable Checked.text) =
        .ok x) ∧
      (∃ x, Checked.optional given [timeoutName] usual.lookupTimeout (Checked.nullable positive) =
        .ok x) ∧
      (∃ x, Checked.optional given [levelName] usual.logLevel (oneOf levelName levels Text.upper) =
        .ok x) ∧
      (∃ x, Checked.optional given [formatName] usual.logFormat
        (oneOf formatName formats Text.lowerLatin) = .ok x) ∧
      (∃ x, Checked.optional given [logFileName] usual.logFile (Checked.nullable Checked.text) =
        .ok x) ∧
      ∃ x, Checked.optional given [disabledName] usual.disabledTypes
        (Checked.list Checked.text) = .ok x := by
  constructor
  · rintro ⟨s, hs⟩
    obtain ⟨hurl, htoken, htimeout, hlevel, hformat, hfile, codes, hcodes, -⟩ := ofGiven_eq_ok.1 hs
    exact ⟨⟨_, hurl⟩, ⟨_, htoken⟩, ⟨_, htimeout⟩, ⟨_, hlevel⟩, ⟨_, hformat⟩, ⟨_, hfile⟩,
      ⟨_, hcodes⟩⟩
  · rintro ⟨⟨url, hurl⟩, ⟨token, htoken⟩, ⟨timeout, htimeout⟩, ⟨level, hlevel⟩, ⟨format, hformat⟩,
      ⟨file, hfile⟩, ⟨codes, hcodes⟩⟩
    exact ⟨{ apiBaseUrl := url, apiToken := token, lookupTimeout := timeout, logLevel := level
             logFormat := format, logFile := file, disabledTypes := codes.map Text.upper },
      ofGiven_eq_ok.2 ⟨hurl, htoken, htimeout, hlevel, hformat, hfile, codes, hcodes, rfl⟩⟩

/-- At most one value, given under the name of a setting. -/
def alone (setting : String) (given : Option Value) : Assoc Value :=
  (given.map fun v => (setting, v)).toList

/-- A setting comes to a value by what it is given: settings of nothing else hold that value. Where
it is given nothing, that is the usual value. -/
def ComesTo (setting : String) (given : Option Value) (w : Value) : Prop :=
  ∃ s, ofArguments (alone setting given) [] = .ok s ∧ s.held setting = w

/-- What is given alone is held under its name, and nothing under any other. -/
theorem valueOf?_alone (setting : String) (given : Option Value) (name : String) :
    Assoc.valueOf? (alone setting given) name = if setting = name then given else none := by
  cases given with
  | none => simp [alone, Assoc.valueOf?]
  | some v => simp [alone, Assoc.valueOf?]

/-- Settings can be made of given values just where they can of each of the values alone. -/
theorem exists_ofGiven_iff_alone {given : Assoc Value} :
    (∃ s, ofGiven given [] = .ok s) ↔
      ∀ setting ∈ names, ∃ s,
        ofGiven (alone setting (Assoc.valueOf? given setting)) [] = .ok s := by
  have hself : ∀ {α : Type} (name : String) (usual : α) (check : Value → Checked α),
      Checked.optional (alone name (Assoc.valueOf? given name)) [name] usual check =
        Checked.optional given [name] usual check := fun name usual check =>
    Checked.optional_congr ((valueOf?_alone _ _ _).trans (if_pos rfl))
  have hother : ∀ {α : Type} (setting name : String) (usual : α) (check : Value → Checked α),
      setting ≠ name → Checked.optional (alone setting (Assoc.valueOf? given setting)) [name] usual
        check = .ok usual := by
    intro α setting name usual check hne
    have hnone : Assoc.valueOf? (alone setting (Assoc.valueOf? given setting)) name =
        Assoc.valueOf? [] name := (valueOf?_alone _ _ _).trans (if_neg hne)
    exact (Checked.optional_congr hnone).trans rfl
  simp only [names, List.forall_mem_cons, exists_ofGiven]
  simp (disch := decide) [hself, hother]

/-- What settings hold under a name depends on what is given under that name only. -/
theorem held_congr {given given' : Assoc Value} {s s' : Settings} {setting : String}
    (h : ofGiven given [] = .ok s) (h' : ofGiven given' [] = .ok s') (hsetting : setting ∈ names)
    (hsame : Assoc.valueOf? given setting = Assoc.valueOf? given' setting) :
    s.held setting = s'.held setting := by
  obtain ⟨hurl, htoken, htimeout, hlevel, hformat, hfile, codes, hcodes, hupper⟩ :=
    ofGiven_eq_ok.1 h
  obtain ⟨hurl', htoken', htimeout', hlevel', hformat', hfile', codes', hcodes', hupper'⟩ :=
    ofGiven_eq_ok.1 h'
  have hfield : ∀ {α : Type} {usual x x' : α} {check : Value → Checked α},
      Checked.optional given [setting] usual check = .ok x →
      Checked.optional given' [setting] usual check = .ok x' → x = x' := fun hx hx' =>
    Except.ok.inj (hx.symm.trans ((Checked.optional_congr hsame).trans hx'))
  simp only [names, List.mem_cons, List.not_mem_nil, or_false] at hsetting
  rcases hsetting with rfl | rfl | rfl | rfl | rfl | rfl | rfl
  · exact congrArg Value.text (hfield hurl hurl')
  · exact congrArg (fun x => (Option.map Value.text x).getD .null) (hfield htoken htoken')
  · exact congrArg (fun x => (Option.map Value.float x).getD .null) (hfield htimeout htimeout')
  · exact congrArg Value.text (hfield hlevel hlevel')
  · exact congrArg Value.text (hfield hformat hformat')
  · exact congrArg (fun x => (Option.map Value.text x).getD .null) (hfield hfile hfile')
  · have hdisabled : s.disabledTypes = s'.disabledTypes := by
      rw [← hupper, ← hupper', hfield hcodes hcodes']
    exact congrArg (fun x => Value.list (List.map Value.text x)) hdisabled

/-! ## The three sources -/

variable {file : ProjectFile} {env : Environment} {members given : Assoc Value} {setting : String}

/-- The value that an environment gives a setting, in whatever case the variable is spelled. -/
def ofEnvironment? (env : Environment) (setting : String) : Option Value :=
  match fromVariable env setting with
  | .ok .null => none
  | .ok v => some v
  | .error _ => none

/-- The value that counts for a setting: that of the section, unless it gives none or the
environment holds the very variable; else that of the environment. -/
def chosen (env : Environment) (members : Assoc Value) (setting : String) : Option Value :=
  if Assoc.holds env (variableName setting) then ofEnvironment? env setting
  else (Assoc.valueOf? members setting).or (ofEnvironment? env setting)

/-- What an environment gives is listed once for each setting. -/
theorem fromEnvironment_spec (h : fromEnvironment env = .ok given) :
    (Assoc.keys given).Nodup ∧
      ∀ setting ∈ names, Assoc.valueOf? given setting = ofEnvironment? env setting := by
  unfold fromEnvironment at h
  cases hread : names.mapM fun setting => (fromVariable env setting).map fun v => (setting, v) with
  | error cause => rw [hread] at h; cases h
  | ok found =>
    rw [hread] at h
    cases h
    obtain ⟨hkeys, hfound⟩ := Assoc.valueOf?_of_mapM hread
    have hnodup : (Assoc.keys found).Nodup := hkeys ▸ (by decide : names.Nodup)
    refine ⟨hnodup.sublist (List.filter_sublist.map _), fun setting hsetting => ?_⟩
    obtain ⟨v, hv, hheld⟩ := hfound setting hsetting
    rw [Assoc.valueOf?_filter _ hnodup, hheld, ofEnvironment?, hv]
    cases v <;> rfl

/-- The arguments that a section makes hold its values, but for the settings whose variable is
set. -/
theorem valueOf?_overrides (hnames : (Assoc.keys members).Nodup) (hsetting : setting ∈ names) :
    Assoc.valueOf? (overrides env members) setting =
      if Assoc.holds env (variableName setting) then none else Assoc.valueOf? members setting := by
  rw [overrides, Assoc.valueOf?_filter _ hnames]
  cases hheld : Assoc.holds env (variableName setting) <;>
    cases Assoc.valueOf? members setting <;> simp [Option.filter, hsetting, hheld]

/-- The settings of a section are made of the values that count. -/
theorem load_eq_of_chosen (hfile : file.entry = .object members)
    (hnames : (Assoc.keys members).Nodup) (hgiven : fromEnvironment env = .ok given) :
    ∃ all, load file env = (ofGiven all []).mapError .refused ∧
      ∀ setting ∈ names, Assoc.valueOf? all setting = chosen env members setting := by
  refine ⟨Assoc.putAll given (overrides env members), ?_, fun setting hsetting => ?_⟩
  · rw [load_of_section hfile, ofArguments, unknown_overrides, hgiven]
    rfl
  · have hkept : (Assoc.keys (overrides env members)).Nodup :=
      hnames.sublist (List.filter_sublist.map _)
    rw [Assoc.valueOf?_putAll_of_nodup _ hkept, valueOf?_overrides hnames hsetting,
      (fromEnvironment_spec hgiven).2 setting hsetting, chosen]
    split <;> rfl

/-- Settings of one value alone are made of that value. -/
theorem ofArguments_alone (hsetting : setting ∈ names) (value : Option Value) :
    ofArguments (alone setting value) [] =
      (ofGiven (alone setting value) []).mapError .refused := by
  have hknown : (Assoc.keys (alone setting value)).filter (!names.contains ·) = [] := by
    cases value with
    | none => rfl
    | some v => simp [alone, Assoc.keys, hsetting]
  have hempty : fromEnvironment [] = .ok [] := by rfl
  rw [ofArguments, hknown, hempty]
  cases value <;> rfl

/-- What settings are made of comes to what they hold. -/
theorem comesTo_held {s : Settings} (h : ofGiven given [] = .ok s) (hsetting : setting ∈ names) :
    ComesTo setting (Assoc.valueOf? given setting) (s.held setting) := by
  obtain ⟨s', hs'⟩ := exists_ofGiven_iff_alone.1 ⟨s, h⟩ setting hsetting
  refine ⟨s', ?_, held_congr hs' h hsetting ((valueOf?_alone _ _ _).trans (if_pos rfl))⟩
  rw [ofArguments_alone hsetting, hs']
  rfl

/-- Settings of an environment alone are made of what it gives. -/
theorem ofArguments_nil (hgiven : fromEnvironment env = .ok given) :
    ofArguments [] env = (ofGiven given []).mapError .refused := by
  rw [ofArguments, hgiven]
  rfl

/-- A checked value whose issues are reported is there just where it was. -/
theorem mapError_eq_ok {ε ε' α : Type} {x : Except ε α} {f : ε → ε'} {a : α} :
    x.mapError f = .ok a ↔ x = .ok a := by
  cases x <;> simp [Except.mapError]

/-- For a project file with a section, the settings come setting by setting from three sources. If
the environment holds the very variable of a setting, or the section does not give it, the setting
is what the environment makes it, in whatever case the variable is spelled there, and the usual
value if that gives nothing either. Otherwise it is what the section makes it, also where the
environment holds the variable in another case. The settings can be made just where the environment
is readable and each of these values is one for its setting. -/
theorem precedence (hfile : file.entry = .object members) (hnames : (Assoc.keys members).Nodup) :
    ((∃ s, load file env = .ok s) ↔ (∃ given, fromEnvironment env = .ok given) ∧
      ∀ setting ∈ names, ∃ w, ComesTo setting (chosen env members setting) w) ∧
    ∀ s, load file env = .ok s → ∀ setting ∈ names,
      (Assoc.holds env (variableName setting) = true ∨ Assoc.valueOf? members setting = none →
        ComesTo setting (ofEnvironment? env setting) (s.held setting) ∧
        (env.lookUp (variableName setting) = none → s.held setting = ({} : Settings).held setting) ∧
        ∀ s', ofArguments [] env = .ok s' → s.held setting = s'.held setting) ∧
      (Assoc.holds env (variableName setting) = false →
        ∀ v, Assoc.valueOf? members setting = some v →
          ComesTo setting (some v) (s.held setting)) := by
  cases hread : fromEnvironment env with
  | error cause =>
    have hload : load file env = .error cause := by
      rw [load_of_section hfile, ofArguments, hread]
      rfl
    refine ⟨⟨fun ⟨s, hs⟩ => ?_, fun ⟨⟨given, hgiven⟩, _⟩ => nomatch hgiven⟩, fun s hs => ?_⟩
    all_goals cases hload.symm.trans hs
  | ok given =>
  obtain ⟨all, hload, hall⟩ := load_eq_of_chosen hfile hnames hread
  have hmade : ∀ s, load file env = .ok s ↔ ofGiven all [] = .ok s := fun s => by
    rw [hload, mapError_eq_ok]
  refine ⟨?_, fun s hs setting hsetting => ?_⟩
  · rw [exists_congr hmade, exists_ofGiven_iff_alone, and_iff_right ⟨given, rfl⟩]
    refine forall₂_congr fun setting hsetting => ?_
    simp only [ComesTo, ← hall setting hsetting, ofArguments_alone hsetting, mapError_eq_ok]
    exact ⟨fun ⟨s, hs⟩ => ⟨_, s, hs, rfl⟩, fun ⟨_, s, hs, _⟩ => ⟨s, hs⟩⟩
  · have hmadeOf := (hmade s).1 hs
    have hcomes := comesTo_held hmadeOf hsetting
    rw [hall setting hsetting, chosen] at hcomes
    refine ⟨fun henvironment => ?_, fun hheld v hv => ?_⟩
    · have hchosen : chosen env members setting = ofEnvironment? env setting := by
        rcases henvironment with hheld | hnone
        · exact if_pos hheld
        · rw [chosen, hnone]
          exact ite_self _
      rw [← chosen, hchosen] at hcomes
      refine ⟨hcomes, fun hlookUp => ?_, fun s' hs' => ?_⟩
      · have hnothing : ofEnvironment? env setting = none := by
          rw [ofEnvironment?, fromVariable, hlookUp]
        rw [hnothing] at hcomes
        obtain ⟨usual, husual, hsame⟩ := hcomes
        cases (rfl : ofArguments [] [] = .ok ({} : Settings)).symm.trans husual
        exact hsame.symm
      · rw [ofArguments_nil hread, mapError_eq_ok] at hs'
        refine held_congr hmadeOf hs' hsetting ?_
        rw [hall setting hsetting, hchosen, (fromEnvironment_spec hread).2 setting hsetting]
    · rw [if_neg (by simp [hheld]), hv] at hcomes
      exact hcomes

/-- An environment without lists gives the texts of its variables. -/
theorem fromEnvironment_of_lookUp (h : env.lookUp (variableName disabledName) = none) :
    fromEnvironment env = .ok (names.filterMap fun setting =>
      (env.lookUp (variableName setting)).map fun content => (setting, .text content)) := by
  let found (setting : String) : String × Value :=
    (setting, ((env.lookUp (variableName setting)).map .text).getD .null)
  have hread : ∀ settings : List String,
      settings.mapM (fun setting => (fromVariable env setting).map fun v => (setting, v)) =
        .ok (settings.map found) := by
    intro settings
    induction settings with
    | nil => rfl
    | cons setting rest ih =>
      have hfound : (fromVariable env setting).map (fun v => (setting, v)) =
          .ok (found setting) := by
        simp only [fromVariable, found]
        cases hvariable : env.lookUp (variableName setting) with
        | none => rfl
        | some content =>
          have hname : setting ≠ disabledName := by
            rintro rfl
            cases hvariable.symm.trans h
          simp only [if_neg hname]
          rfl
      rw [List.mapM_cons, hfound, ih]
      rfl
  -- Whatever the selection, it keeps the texts and leaves out what is `null`.
  have hgiven : ∀ (given : String × Value → Bool), (∀ setting, given (setting, .null) = false) →
      (∀ setting content, given (setting, .text content) = true) → ∀ settings : List String,
      (settings.map found).filter given = settings.filterMap fun setting =>
        (env.lookUp (variableName setting)).map fun content => (setting, .text content) := by
    intro given hnull htext settings
    induction settings with
    | nil => rfl
    | cons setting rest ih =>
      rw [List.map_cons, List.filterMap_cons, ← ih, List.filter_cons]
      simp only [found]
      cases env.lookUp (variableName setting) with
      | none => simp [hnull]
      | some content => simp [htext]
  rw [fromEnvironment, hread]
  exact congrArg Except.ok (hgiven _ (fun _ => rfl) (fun _ _ => rfl) names)

/-- A variable is looked up by the characters of its name, each in lower case. -/
theorem lookUp_eq (env : Environment) (name : String) :
    let lower (s : String) := s.toList.map fun c => if c.toNat == 0x212A then 'k' else c.toLower
    env.lookUp name = (env.reverse.find? fun kv => lower kv.1 == lower name).map (·.2) := by
  intro lower
  have hlower : ∀ s, (Text.lowerLatin s).toList = lower s := fun s => String.toList_map
  refine congrArg (Option.map _) (congrArg (List.find? · _) (funext fun kv => ?_))
  rw [Bool.eq_iff_iff, beq_iff_eq, beq_iff_eq, ← String.toList_inj, hlower, hlower]

/-- The characters of the name of a variable. -/
theorem toList_variableName (setting : String) :
    (variableName setting).toList = "JOBFORM_".toList ++ setting.toList.map Char.toUpper := by
  rw [variableName, String.toList_append, String.toList_map]

/-- The section of a team. -/
def teamSection : Assoc Value :=
  [(tokenName, .text "public"), (logFileName, .text "team.log")]

/-- The project file of a team. -/
def teamFile : ProjectFile :=
  .content (.object [("jobform", .object teamSection)])

/-- An environment that holds one variable of the section, and another one in lower case. -/
def ownEnvironment : Environment :=
  [("JOBFORM_API_TOKEN", "secret"), ("jobform_log_file", "own.log")]

/-- What such an environment gives. -/
theorem fromEnvironment_own : fromEnvironment ownEnvironment =
    .ok [(tokenName, .text "secret"), (logFileName, .text "own.log")] := by
  have hdisabled : ownEnvironment.lookUp (variableName disabledName) = none := by
    simp only [lookUp_eq, toList_variableName]
    decide
  rw [fromEnvironment_of_lookUp hdisabled]
  refine congrArg Except.ok ?_
  simp only [lookUp_eq, toList_variableName]
  rfl

/-- Of the two variables of the section the environment holds the one for the token. -/
theorem holds_own : Assoc.holds ownEnvironment (variableName tokenName) = true ∧
    Assoc.holds ownEnvironment (variableName logFileName) = false := by
  have htoken : variableName tokenName = "JOBFORM_API_TOKEN" := by
    rw [← String.toList_inj, toList_variableName]
    decide
  have hfile : variableName logFileName = "JOBFORM_LOG_FILE" := by
    rw [← String.toList_inj, toList_variableName]
    decide
  rw [htoken, hfile]
  decide

/-- The settings of the team in such an environment. -/
theorem load_own : load teamFile ownEnvironment =
    .ok { apiToken := some "secret", logFile := some "team.log" } := by
  have hoverrides : overrides ownEnvironment teamSection = [(logFileName, .text "team.log")] := by
    simp [overrides, teamSection, holds_own, names]
  rw [load_of_section (rfl : teamFile.entry = .object teamSection), hoverrides, ofArguments,
    fromEnvironment_own]
  rfl

/-- The token of the team gives way to the variable; the name of its log file does not give way to a
variable in lower case. -/
theorem precedence_team :
    teamFile.entry = .object teamSection ∧ (Assoc.keys teamSection).Nodup ∧
      ∃ s, load teamFile ownEnvironment = .ok s ∧ s.held tokenName = .text "secret" ∧
        s.held logFileName = .text "team.log" := by
  have hnames : (Assoc.keys teamSection).Nodup := by decide
  obtain ⟨-, hsources⟩ := @precedence teamFile ownEnvironment teamSection rfl hnames
  have hsources := hsources _ load_own
  obtain ⟨-, -, hsame⟩ := (hsources tokenName (by decide)).1 (.inl holds_own.1)
  obtain ⟨s, hs, hfile⟩ := (hsources logFileName (by decide)).2 holds_own.2 _ rfl
  have hown : ofArguments [] ownEnvironment =
      .ok { apiToken := some "secret", logFile := some "own.log" } := by
    rw [ofArguments_nil fromEnvironment_own]
    rfl
  have halone : ofArguments (alone logFileName (some (.text "team.log"))) [] =
      .ok { logFile := some "team.log" } := by
    rw [ofArguments_alone (by decide)]
    rfl
  cases halone.symm.trans hs
  exact ⟨rfl, hnames, _, load_own, hsame _ hown, hfile.symm⟩

/-- The environment defines the log file, and yet the section makes it. -/
theorem precedence_misspelled :
    ownEnvironment.lookUp (variableName logFileName) = some "own.log" ∧
      ∃ s s', load teamFile ownEnvironment = .ok s ∧ ofArguments [] ownEnvironment = .ok s' ∧
        s.held logFileName = .text "team.log" ∧ s'.held logFileName = .text "own.log" := by
  have hown : ofArguments [] ownEnvironment =
      .ok { apiToken := some "secret", logFile := some "own.log" } := by
    rw [ofArguments_nil fromEnvironment_own]
    rfl
  have hdefined : ownEnvironment.lookUp (variableName logFileName) = some "own.log" := by
    simp only [lookUp_eq, toList_variableName]
    decide
  exact ⟨hdefined, _, _, load_own, hown, rfl, rfl⟩

end Settings

end SyncForm
