import SyncForm.Value.Text

/-!
# What a form reports while it works

An `Event` is something the form did: a key it wrote, which its subscribers hear of, or an entry of
its log. `Event.logged?` words the log entries; `Event.written?` picks the keys written.
-/

namespace SyncForm

/-- The weight of a log entry. -/
inductive Level where
  | debug
  | info
  | warning
  deriving DecidableEq

/-- The written name of a level. -/
def Level.name : Level → String
  | debug => "DEBUG"
  | info => "INFO"
  | warning => "WARNING"

/-- The two lists of the mapping editor. -/
inductive Side where
  | source
  | target
  deriving DecidableEq

/-- The written name of a side. -/
def Side.name : Side → String
  | source => "source"
  | target => "target"

/-- Something a form did. -/
inductive Event where
  /-- A key was written by the resolver. -/
  | wrote (key : String) (value : Value)
  | initialized (fields : Nat)
  | changed (key : String) (value : Value)
  | issued (lookup : String) (value : Value)
  | applied (lookup : String) (value : Value)
  | discarded (lookup : String) (value : Value)
  | discardedFailure (lookup : String) (value : Value)
  | failed (lookup : String) (value : Value) (reason : String)
  | grew (source target added : Nat)
  | followed (added : Nat) (key : String)
  | refusedPayload (side : Side) (index : Int)
  | loadFailed (lookups : List String)
  | exported (keys : Nat)

/-- An entry of the log: its level, the component that wrote it and the message. -/
structure LogEntry where
  level : Level
  component : String
  message : String

namespace Event

/-- The log entry of an event; writes are not logged. -/
def logged? : Event → Option LogEntry
  | wrote _ _ => none
  | initialized fields =>
    resolver .debug ("Initialized resolver with " ++ toString fields ++ " descriptors")
  | changed key value => form .debug ("Field " ++ key ++ " changed to " ++ value.quoted)
  | issued lookup value =>
    resolver .info ("Lookup issued for " ++ lookup ++ "=" ++ value.quoted)
  | applied lookup value =>
    resolver .info ("Lookup applied for " ++ lookup ++ "=" ++ value.quoted)
  | discarded lookup value =>
    resolver .debug
      ("Discarded lookup result for " ++ lookup ++ "=" ++ value.quoted ++ " (superseded)")
  | discardedFailure lookup value =>
    resolver .debug
      ("Discarded failed lookup for " ++ lookup ++ "=" ++ value.quoted ++ " (superseded)")
  | failed lookup value reason =>
    resolver .warning
      ("Lookup for " ++ lookup ++ "=" ++ value.quoted ++ " failed: " ++ reason)
  | grew source target added =>
    mapping .debug
      ("Reconciled mapping lengths: source=" ++ toString source ++ " target=" ++ toString target ++
        " (+" ++ toString added ++ ")")
  | followed added key =>
    form .debug ("Grew mapping by " ++ toString added ++ " records after " ++ key ++ " changed")
  | refusedPayload side index =>
    mapping .warning
      ("Rejected malformed JSON payload at " ++ side.name ++ "[" ++ toString index ++ "]")
  | loadFailed lookups =>
    form .warning ("Initial lookups failed for: " ++ String.intercalate ", " lookups)
  | exported keys => form .info ("Exported job parameters (" ++ toString keys ++ " keys)")
where
  resolver (level : Level) (message : String) : Option LogEntry :=
    some ⟨level, "jobform.resolver", message⟩
  form (level : Level) (message : String) : Option LogEntry :=
    some ⟨level, "jobform.form", message⟩
  mapping (level : Level) (message : String) : Option LogEntry :=
    some ⟨level, "jobform.mapping", message⟩

/-- The key and value of a write. -/
def written? : Event → Option (String × Value)
  | wrote key value => some (key, value)
  | _ => none

end Event

end SyncForm
