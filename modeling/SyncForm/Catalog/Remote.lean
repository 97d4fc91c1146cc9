import SyncForm.Catalog.Basic
import SyncForm.Json.Reader
import SyncForm.Value.Json
import SyncForm.Value.Number

/-!
# Catalogs behind a service

A remote catalog asks the scheduler service, one request for each question; the types alone are
built in. The service answers in an envelope: a code, which is zero or two hundred where all went
well, a message and the data. Data without an envelope is taken as it is. Requests are never
repeated, and whatever goes wrong on the way is a report that names the operation.
-/

namespace SyncForm

/-- A service by its address, and the token it asks for. -/
structure Remote where
  baseUrl : String
  token : Option String

/-- A request: a path below the address and its parameters in order. -/
structure Request where
  path : String
  parameters : List (String × String)

/-- What comes back on a request: a body with its status, or the transport's word for a failure. -/
inductive Reply where
  | answered (status : Int) (body : List Char)
  | lost (error : String)

namespace Remote

/-- A service at an address; slashes at the end of the address do not count. -/
def ofAddress (address : String) (token : Option String) : Remote :=
  { baseUrl := String.ofList (address.toList.reverse.dropWhile (· == '/')).reverse
    token := token.filter (!·.isEmpty) }

/-- What follows the first occurrence of a mark, if there is one. -/
def afterMark (mark : List Char) : List Char → Option (List Char)
  | [] => none
  | c :: rest =>
    if mark.isPrefixOf (c :: rest) then some ((c :: rest).drop mark.length)
    else afterMark mark rest

/-- The path of the address. -/
def basePath (r : Remote) : String :=
  match afterMark "://".toList r.baseUrl.toList with
  | some rest => String.ofList (rest.dropWhile (· != '/'))
  | none => r.baseUrl

/-- A parameter as it is sent. -/
def sent : Value → String
  | .null => ""
  | .bool b => if b then "true" else "false"
  | v => v.plain

/-- A parameter with its values; a list is sent item by item. -/
def parameter (name : String) : Value → List (String × String)
  | .list vs => vs.map fun v => (name, sent v)
  | v => [(name, sent v)]

/-- The request that puts a question to the service. -/
def request? (r : Remote) : Query → Option Request
  | .instances type =>
    some { path := r.basePath ++ "/datasources/list", parameters := parameter "type" type }
  | .tables datasource =>
    some {
      path := r.basePath ++ "/datasources/tables"
      parameters := parameter "datasourceId" datasource }
  | .columns datasource table =>
    some {
      path := r.basePath ++ "/datasources/tableColumnsWithType"
      parameters := parameter "datasourceId" datasource ++ parameter "tableName" table }
  | _ => none

/-- The report on a request that came to nothing. -/
def failed (operation : String) (status : Option Int) (cause : Fault) : Fault :=
  .report (Fault.catalog ("Catalog request failed: " ++ operation) (some operation) status
    (some cause) {})

/-- A body without the mark of its encoding. -/
def withoutMark : List Char → List Char
  | '\uFEFF' :: rest => rest
  | body => body

/-- The payload of a reply. -/
def payload (operation : String) : Reply → Except Fault Value
  | .lost error => .error (failed operation none (.transport error))
  | .answered status body =>
    if 200 ≤ status ∧ status < 300 then
      match Json.read (withoutMark body) with
      | .ok document => .ok (.ofDocument document)
      | .error (.tooManyDigits count) => .error (failed operation none (.tooManyDigits count))
      | .error .malformed => .error (failed operation none .notJson)
    else .error (failed operation (some status) (.errorStatus status))

/-- Whether a code says that all went well. -/
def isSuccess (code : Value) : Bool :=
  code.equals (.int 0) || code.equals (.int 200)

/-- The data of a payload, taken out of its envelope. -/
def dataOf (operation : String) (payload : Value) : Except Fault Value :=
  match payload.member? "code" with
  | none => .ok payload
  | some code =>
    if isSuccess code then .ok ((payload.member? "data").getD .null)
    else
      let message := ((payload.member? "msg").getD .null).plain
      .error (.report (Fault.catalog
        ("Catalog returned an error for " ++ operation ++ ": " ++ message) (some operation) none
        none { details := [("code", code)] }))

/-- The data of a reply. -/
def receive (operation : String) (reply : Reply) : Except Fault Value := do
  dataOf operation (← payload operation reply)

/-- Data of the right shape, or a report. -/
def shaped {α : Type} (operation message : String) (c : Checked α) : Except Fault α :=
  c.mapError fun issues =>
    .report (Fault.catalog message (some operation) none (some (.refused issues)) {})

/-- The items of a list of data that may be empty in any way. -/
def itemsOf (v : Value) : Except Fault (List Value) :=
  (v.orElse (.list [])).toSequence

/-- The name of a table, given by itself or as the value or label of a choice. -/
def tableName : Value → String
  | .object members =>
    let part (name : String) := (Assoc.valueOf? members name).getD .null
    ((part "value").orElse ((part "label").orElse (.text ""))).plain
  | v => v.plain

/-- The instances in a reply. -/
def readInstances (operation : String) (reply : Reply) :
    Except Fault (List DatasourceInstance) := do
  (← itemsOf (← receive operation reply)).mapM fun v =>
    shaped operation "Malformed datasource list" (DatasourceInstance.ofValue v)

/-- The tables in a reply; those without a name are left out. -/
def readTables (operation : String) (reply : Reply) : Except Fault (List Value) := do
  let names := (← itemsOf (← receive operation reply)).map tableName
  return (names.filter (!·.isEmpty)).map .text

/-- The columns in a reply. -/
def readColumns (operation : String) (reply : Reply) : Except Fault TableColumns := do
  let data := (← receive operation reply).orElse (.object [])
  shaped operation "Malformed column payload" (TableColumns.ofValue data)

/-- The answers of a service that replies in a given way. -/
def toCatalog (r : Remote) (send : Request → Reply) : Catalog :=
  let ask {α : Type} (q : Query) (read : String → Reply → Except Fault α) : Except Fault α :=
    match r.request? q with
    | some request => read q.operation (send request)
    | none => .error (Catalog.unavailable q.operation)
  { types := .ok DatasourceType.builtIn
    instances := fun type => ask (.instances type) readInstances
    tables := fun datasource => ask (.tables datasource) readTables
    columns := fun datasource table => ask (.columns datasource table) readColumns
    named := fun name _ => .error (Catalog.unavailable (Query.named name .null).operation) }

end Remote

end SyncForm
