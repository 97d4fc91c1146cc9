/-!
# Issues of checked data

Data from outside — catalog payloads and settings — is checked field by field. An `Issue` says at
which place a value was refused and why; `Complaint.code` and `Complaint.message` are its two
written forms.
-/

namespace SyncForm

/-- A step on the way to a value inside checked data. -/
inductive Place where
  | field (name : String)
  | index (position : Nat)

/-- Why a value was refused. -/
inductive Complaint where
  | missing
  | notText
  | emptyText
  | notTruth
  | unclearTruth
  | notList
  | notRecord (type : String)
  | notNumber
  | unclearNumber
  | notPositive
  | unexpected
  | rejected (reason : String)

/-- The short code of a complaint. -/
def Complaint.code : Complaint → String
  | missing => "missing"
  | notText => "string_type"
  | emptyText => "string_too_short"
  | notTruth => "bool_type"
  | unclearTruth => "bool_parsing"
  | notList => "list_type"
  | notRecord _ => "model_type"
  | notNumber => "float_type"
  | unclearNumber => "float_parsing"
  | notPositive => "greater_than"
  | unexpected => "extra_forbidden"
  | rejected _ => "value_error"

/-- The sentence of a complaint. -/
def Complaint.message : Complaint → String
  | missing => "Field required"
  | notText => "Input should be a valid string"
  | emptyText => "String should have at least 1 character"
  | notTruth => "Input should be a valid boolean"
  | unclearTruth => "Input should be a valid boolean, unable to interpret input"
  | notList => "Input should be a valid list"
  | notRecord type => "Input should be a valid dictionary or instance of " ++ type
  | notNumber => "Input should be a valid number"
  | unclearNumber => "Input should be a valid number, unable to parse string as a number"
  | notPositive => "Input should be greater than 0"
  | unexpected => "Extra inputs are not permitted"
  | rejected reason => "Value error, " ++ reason

/-- A refused value: where it stands and what is wrong with it. -/
structure Issue where
  path : List Place
  complaint : Complaint

/-- Moves an issue one step outwards. -/
def Issue.under (place : Place) (issue : Issue) : Issue :=
  { issue with path := place :: issue.path }

/-- The place and the sentence of an issue on one line. -/
def Issue.line (issue : Issue) : String :=
  let steps := issue.path.map fun
    | .field name => name
    | .index position => toString position
  String.intercalate "." steps ++ ": " ++ issue.complaint.message

end SyncForm
