import SyncForm.Value.Json
import SyncForm.Value.Number
import SyncForm.Value.Text

/-!
# Documents as values

A document can stand where a value does. Its texts are lists of code points, so that half of a
surrogate pair may stand in them; in every other respect it is treated as the value that it
describes. `Datum` is what values and documents have in common.
-/

namespace SyncForm

namespace Json.Document

/-- Whether a document counts as given. -/
def isTrue (d : Document) : Bool :=
  (Value.ofDocument d).isTrue

/-- The word by which messages name the kind of a document. -/
def kind (d : Document) : String :=
  (Value.ofDocument d).kind

/-- The integer that a document denotes. -/
def toInteger : Document → Except Fault Int
  | .text cs =>
    match Text.readWhole (textOf cs) with
    | .value i => .ok i
    | .invalid => .error (.stated "ValueError" (Fault.notIntegerSentence (Text.quoteCodes cs)))
    | .tooLong count => .error (.tooManyDigits count)
  | d => (Value.ofDocument d).toInteger

mutual

/-- A document with its texts quoted. -/
def quoted : Document → String
  | .text cs => Text.quoteCodes cs
  | .array items => "[" ++ Value.commaJoin (quotedItems items) ++ "]"
  | .object members => "\x7b" ++ Value.commaJoin (quotedMembers members) ++ "\x7d"
  | d => (Value.ofDocument d).quoted

/-- Each item of an array. -/
def quotedItems : List Document → List String
  | [] => []
  | item :: rest => quoted item :: quotedItems rest

/-- Each member of an object with its name. -/
def quotedMembers : List (List Nat × Document) → List String
  | [] => []
  | (name, value) :: rest =>
    (Text.quoteCodes name ++ ": " ++ quoted value) :: quotedMembers rest

end

/-- A text as it stands, every other document quoted. -/
def plain : Document → List Nat
  | .text cs => cs
  | d => codesOf d.quoted

end Json.Document

/-- What the name, the data type and the payload of a column record are: values, or documents. -/
class Datum (α : Type) where
  ofInt : Int → α
  ofBool : Bool → α
  ofString : String → α
  ofText : List Nat → α
  text? : α → Option (List Nat)
  isNull : α → Bool
  isTrue : α → Bool
  kind : α → String
  toInteger : α → Except Fault Int

instance : Datum Value where
  ofInt := .int
  ofBool := .bool
  ofString := .text
  ofText text := .text (Json.textOf text)
  text?
    | .text s => some (Json.codesOf s)
    | _ => none
  isNull
    | .null => true
    | _ => false
  isTrue := Value.isTrue
  kind := Value.kind
  toInteger := Value.toInteger

instance : Datum Json.Document where
  ofInt := .int
  ofBool := .bool
  ofString s := .text (Json.codesOf s)
  ofText := .text
  text?
    | .text text => some text
    | _ => none
  isNull
    | .null => true
    | _ => false
  isTrue := Json.Document.isTrue
  kind := Json.Document.kind
  toInteger := Json.Document.toInteger

/-- Whether a value counts as given. -/
@[simp] theorem Value.datum_isTrue (v : Value) : Datum.isTrue v = v.isTrue :=
  rfl

/-- A text of code points counts as given unless it is empty. -/
@[simp] theorem Json.Document.datum_isTrue_text (text : List Nat) :
    Datum.isTrue (Json.Document.text text) = !text.isEmpty := by
  cases text with
  | nil => rfl
  | cons n text => simp [Datum.isTrue, isTrue, Value.ofDocument, Value.isTrue, Json.textOf]

end SyncForm
