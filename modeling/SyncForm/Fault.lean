import SyncForm.Issue
import SyncForm.Value.Text

/-!
# Faults

A `Fault` is whatever stops an operation, as a cause: a value of the wrong kind, a text that spells
no number, a refused payload, an unreachable catalog, or a `Report` that the form itself words for
its user. `Fault.family` and `Fault.text` are the two words a report quotes a cause by, and
`Report.render` is the text of a report: a headline, the details one per line, a suggestion.
-/

namespace SyncForm

/-- What a report is about. -/
inductive Subject (α : Type) where
  | form
  | configuration (field : Option String) (value : Value)
  | catalog (operation : Option String) (status : Option Int) (cause : Option α)
  | lookup (trigger : String) (value : Value) (cause : Option α)
  | validation (issues : List String)

/-- The name of what a report is about. -/
def Subject.name {α : Type} : Subject α → String
  | form => "FormError"
  | configuration _ _ => "ConfigurationError"
  | catalog _ _ _ => "CatalogError"
  | lookup _ _ _ => "LookupFailedError"
  | validation _ => "ValidationError"

/-- A fault worded for the user of the form. -/
structure Report (α : Type) where
  subject : Subject α
  message : String
  key : Option String
  details : Assoc Value
  suggestion : Option String

/-- What is wrong with a message pattern and its arguments. -/
inductive PatternFlaw where
  | incomplete
  | incompleteKey
  /-- The table has no member of a name. -/
  | noMember (name : List Nat)
  | tooFew
  | tooMany
  | needsMapping
  | needsNumber (directive : Char) (kind : String)
  | needsWhole (directive : Char) (kind : String)
  | needsCharacter
  | characterRange
  | unsupported (directive : Nat) (position : Nat)
  | starNeedsWhole
  /-- A width or a precision has too many digits. -/
  | tooBig (name : String)
  /-- An argument is no width or no precision of the machine. -/
  | starTooLarge (type : String)
  | needsReal (kind : String)

/-- Whatever stops an operation. -/
inductive Fault where
  /-- A report of the form itself. -/
  | report (r : Report Fault)
  /-- Checked data was refused. -/
  | refused (issues : List Issue)
  /-- The variable of a setting does not hold JSON. -/
  | unreadableSetting (setting : String)
  /-- The catalog service answered with an error status. -/
  | errorStatus (code : Int)
  /-- The catalog service could not be asked; the transport's own word for it. -/
  | transport (error : String)
  /-- A body is not JSON. -/
  | notJson
  /-- The time for a lookup ran out. -/
  | timedOut
  /-- A cause known by its family and its text only. -/
  | stated (family text : String)
  | notIterable (kind : String)
  | notHashable (kind : String)
  /-- A value in which nothing can be searched for. -/
  | notContainer (kind : String)
  /-- A text or a list was asked for a member by name. -/
  | notNamed (kind : String)
  | lacks (kind member : String)
  | notColumn (kind : String)
  | notIntegral (kind : String)
  | notReal (kind : String)
  | notJsonText (kind : String)
  | notIntegerText (text : String)
  | notFloatText (text : String)
  | tooManyDigits (count : Nat)
  | nanHasNoInteger
  | infinityHasNoInteger
  | integerTooLarge
  /-- A word is none of a fixed set. -/
  | notAmong (word : Value) (set : String)
  | missingKey (key : String)
  /-- A table was asked for a position. -/
  | missingPosition (position : Nat)
  | badPair (position length : Nat)
  | notPair (position : Nat)
  | pattern (flaw : PatternFlaw)
  | reservedAttribute (name : String)
  | unknownLevel (word : String)
  | noSuchIndex

/-- A report about a catalog, a lookup, … with its cause. -/
abbrev FormReport := Report Fault

namespace Report

/-- The text of a report. -/
def render {α : Type} (r : Report α) : String :=
  let head :=
    match r.key with
    | some key => if key.isEmpty then r.message else "[" ++ key ++ "] " ++ r.message
    | none => r.message
  let details :=
    if r.details.isEmpty then []
    else "Details:" :: r.details.map fun (k, v) => "  " ++ k ++ ": " ++ v.plain
  let suggestion :=
    match r.suggestion with
    | some s => if s.isEmpty then [] else ["Suggestion: " ++ s]
    | none => []
  String.intercalate "\n" (head :: (details ++ suggestion))

end Report

/-- The sentence of a pattern flaw. -/
def PatternFlaw.text : PatternFlaw → String
  | incomplete => "incomplete format"
  | incompleteKey => "incomplete format key"
  | noMember name => Text.quoteCodes name
  | tooFew => "not enough arguments for format string"
  | tooMany => "not all arguments converted during string formatting"
  | needsMapping => "format requires a mapping"
  | needsNumber d kind =>
    "%" ++ d.toString ++ " format: a real number is required, not " ++ kind
  | needsWhole d kind => "%" ++ d.toString ++ " format: an integer is required, not " ++ kind
  | needsCharacter => "%c requires int or char"
  | characterRange => "%c arg not in range(0x110000)"
  | unsupported d position =>
    let code := String.ofList (Nat.toDigits 16 d)
    let shown := if 0x1F ≤ d ∧ d < 0x7F then (Char.ofNat d).toString else "?"
    "unsupported format character '" ++ shown ++ "' (0x" ++ code ++ ") at index " ++
      toString position
  | starNeedsWhole => "* wants int"
  | tooBig name => name ++ " too big"
  | starTooLarge type => "Python int too large to convert to C " ++ type
  | needsReal kind => "must be real number, not " ++ kind

/-- The family of a pattern flaw. -/
def PatternFlaw.family : PatternFlaw → String
  | incomplete => "ValueError"
  | incompleteKey => "ValueError"
  | noMember _ => "KeyError"
  | unsupported _ _ => "ValueError"
  | characterRange => "OverflowError"
  | tooBig _ => "ValueError"
  | starTooLarge _ => "OverflowError"
  | _ => "TypeError"

namespace Fault

/-- The family of a fault. -/
def family : Fault → String
  | report r => r.subject.name
  | refused _ => "ValidationError"
  | unreadableSetting _ => "SettingsError"
  | errorStatus _ => "HTTPStatusError"
  | transport error => error
  | notJson => "JSONDecodeError"
  | timedOut => "TimeoutError"
  | stated family _ => family
  | notIterable _ => "TypeError"
  | notHashable _ => "TypeError"
  | notContainer _ => "TypeError"
  | notNamed _ => "TypeError"
  | lacks _ _ => "AttributeError"
  | notColumn _ => "TypeError"
  | notIntegral _ => "TypeError"
  | notReal _ => "TypeError"
  | notJsonText _ => "TypeError"
  | notIntegerText _ => "ValueError"
  | notFloatText _ => "ValueError"
  | tooManyDigits _ => "ValueError"
  | nanHasNoInteger => "ValueError"
  | infinityHasNoInteger => "OverflowError"
  | integerTooLarge => "OverflowError"
  | notAmong _ _ => "ValueError"
  | missingKey _ => "KeyError"
  | missingPosition _ => "KeyError"
  | badPair _ _ => "ValueError"
  | notPair _ => "TypeError"
  | pattern flaw => flaw.family
  | reservedAttribute _ => "KeyError"
  | unknownLevel _ => "ValueError"
  | noSuchIndex => "IndexError"

/-- The longest quotation of a text that spells no integer. -/
def quotationLimit : Nat := 200

/-- What is said of a text, given in quotes, that spells no integer. -/
def notIntegerSentence (quoted : String) : String :=
  "invalid literal for int() with base 10: " ++
    String.ofList (quoted.toList.take quotationLimit)

/-- The text of a fault. -/
def text : Fault → String
  | report r => r.render
  | refused issues => String.intercalate "\n" (issues.map Issue.line)
  | unreadableSetting setting =>
    "error parsing value for field \"" ++ setting ++ "\" from source \"EnvSettingsSource\""
  | errorStatus code => "the catalog service answered with status " ++ toString code
  | transport error => error
  | notJson => "the answer is not JSON"
  | timedOut => ""
  | stated family text => if family = "KeyError" then Text.quote text else text
  | notIterable kind => "'" ++ kind ++ "' object is not iterable"
  | notHashable kind => "unhashable type: '" ++ kind ++ "'"
  | notContainer kind => "argument of type '" ++ kind ++ "' is not iterable"
  | notNamed kind =>
    if kind = "str" then "string indices must be integers, not 'str'"
    else kind ++ " indices must be integers or slices, not str"
  | lacks kind member => "'" ++ kind ++ "' object has no attribute '" ++ member ++ "'"
  | notColumn kind => "expected a column mapping, got " ++ kind
  | notIntegral kind =>
    "int() argument must be a string, a bytes-like object or a real number, not '" ++ kind ++ "'"
  | notReal kind => "float() argument must be a string or a real number, not '" ++ kind ++ "'"
  | notJsonText kind => "the JSON object must be str, bytes or bytearray, not " ++ kind
  | notIntegerText s => notIntegerSentence (Text.quote s)
  | notFloatText s => "could not convert string to float: " ++ Text.quote s
  | tooManyDigits count =>
    "Exceeds the limit (4300 digits) for integer string conversion: value has " ++ toString count ++
      " digits; use sys.set_int_max_str_digits() to increase the limit"
  | nanHasNoInteger => "cannot convert float NaN to integer"
  | infinityHasNoInteger => "cannot convert float infinity to integer"
  | integerTooLarge => "int too large to convert to float"
  | notAmong word set => word.quoted ++ " is not a valid " ++ set
  | missingKey key => Text.quote key
  | missingPosition position => toString position
  | badPair position length =>
    "dictionary update sequence element #" ++ toString position ++ " has length " ++
      toString length ++ "; 2 is required"
  | notPair position =>
    "cannot convert dictionary update sequence element #" ++ toString position ++ " to a sequence"
  | pattern flaw => flaw.text
  | reservedAttribute name =>
    Text.quote ("Attempt to overwrite " ++ Text.quote name ++ " in LogRecord")
  | unknownLevel word => "Unknown log level: " ++ word
  | noSuchIndex => "list index out of range"

/-- What a report quotes of its cause. -/
def quotation : Option Fault → Assoc Value
  | none => []
  | some cause => [("cause", .text cause.text), ("cause_type", .text cause.family)]

/-- The words that a report may be given beside its message. -/
structure Words where
  key : Option String := none
  details : Assoc Value := []
  suggestion : Option String := none

/-- A given suggestion, or the usual one where none or an empty one is given. -/
def suggestionOr (given : Option String) (usual : String) : Option String :=
  match given with
  | some s => if s.isEmpty then some usual else some s
  | none => some usual

/-- A report about a form. -/
def form (message : String) (words : Words) : FormReport :=
  { subject := .form, message, key := words.key, details := words.details
    suggestion := words.suggestion }

/-- A report about the descriptor table of a form; it names the field and the value at fault. -/
def configuration (message : String) (field : Option String) (value : Value) (words : Words) :
    FormReport :=
  let details :=
    match field with
    | some f => if f.isEmpty then words.details else Assoc.put words.details "field" (.text f)
    | none => words.details
  let details :=
    match value with
    | .null => details
    | v => Assoc.put details "value" (.text v.plain)
  { subject := .configuration field value, message, key := words.key, details
    suggestion := words.suggestion }

/-- A report about the catalog; it names the operation, the status and the cause. -/
def catalog (message : String) (operation : Option String) (status : Option Int)
    (cause : Option Fault) (words : Words) : FormReport :=
  let details :=
    match operation with
    | some o => if o.isEmpty then words.details else Assoc.put words.details "operation" (.text o)
    | none => words.details
  let details :=
    match status with
    | some s => Assoc.put details "status_code" (.int s)
    | none => details
  { subject := .catalog operation status cause, message, key := words.key
    details := Assoc.putAll details (quotation cause)
    suggestion := suggestionOr words.suggestion
      "Check that the scheduler API is reachable and the token is valid." }

/-- A report about a lookup that failed for a value of its trigger. -/
def lookup (message trigger : String) (value : Value) (cause : Option Fault) (words : Words) :
    FormReport :=
  { subject := .lookup trigger value cause, message, key := some trigger
    details :=
      Assoc.putAll (Assoc.put words.details "value" (.text value.quoted)) (quotation cause)
    suggestion := suggestionOr words.suggestion "Select the value again to retry the lookup." }

/-- A report about a form that may not be submitted; it lists the issues. -/
def validation (message : String) (issues : List String) (words : Words) : FormReport :=
  let lines := String.intercalate "\n" (issues.map ("  - " ++ ·))
  { subject := .validation issues
    message :=
      if issues.isEmpty then message else message ++ "\n\nIssues found:\n" ++ lines
    key := words.key
    details :=
      if issues.isEmpty then words.details
      else Assoc.put words.details "issue_count" (.int issues.length)
    suggestion := words.suggestion }

end Fault

/-! ## Steps that may fail -/

/-- A mapped answer that is no fault is the image of one. -/
theorem Except.of_map_eq_ok {ε α β : Type} {x : Except ε α} {f : α → β} {b : β}
    (h : x.map f = .ok b) : ∃ a, x = .ok a ∧ f a = b := by
  cases x with
  | error e => cases h
  | ok a => exact ⟨a, rfl, Except.ok.inj h⟩

/-- Two steps succeed just where the first one does and the second one on its result. -/
theorem Except.bind_eq_ok {ε α β : Type} {x : Except ε α} {f : α → Except ε β} {b : β} :
    x >>= f = .ok b ↔ ∃ a, x = .ok a ∧ f a = .ok b := by
  cases x <;> simp [bind, Except.bind]

/-- Two steps fail where the first one does, or the second one on its result. -/
theorem Except.bind_eq_error {ε α β : Type} {x : Except ε α} {f : α → Except ε β} {e : ε} :
    x >>= f = .error e ↔ x = .error e ∨ ∃ a, x = .ok a ∧ f a = .error e := by
  cases x <;> simp [bind, Except.bind]

end SyncForm
