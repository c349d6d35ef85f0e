import ShellQuery.Bson.Extended.Printer

/-!
# Failures of the backend

A failure says which step went wrong and what the backend reported.  Its *info* is the uniform
summary of that report, and the text of a failure is the info as JSON.
-/

namespace ShellQuery

/-! ## Failures -/

/-- A write that the backend turned down. -/
structure WriteFault where
  code : Int
  message : String
  details : Option Document

/-- A write that was not acknowledged as widely as asked for. -/
structure ConcernFault where
  code : Int
  message : String

/-- A failure of the backend or of the client in front of it. -/
inductive BackendFailure where
  | command (code : Int) (message : String)
  | write (fault : WriteFault)
  | writeConcern (fault : ConcernFault)
  | insertMany (faults : List WriteFault) (concern : Option ConcernFault)
  | authentication (message : String)
  | invalidArgument (message : String)
  | serverSelection (message : String)
  | other (message : String)

/-! ## The uniform summary -/

/-- What is known of a failure; absent parts are left out of its text. -/
structure FailureInfo where
  type : Option String
  code : Option Int
  name : Option String
  message : Option String
  key : Option Document

namespace FailureInfo

/-- The name of the codes that callers branch on most often. -/
def codeName? (code : Int) : Option String :=
  if code = 11000 ∨ code = 11001 then some "DuplicateKey"
  else if code = 13 then some "Unauthorized"
  else if code = 18 then some "AuthenticationFailed"
  else if code = 26 then some "NamespaceNotFound"
  else if code = 50 then some "MaxTimeMSExpired"
  else if code = 59 then some "CommandNotFound"
  else if code = 121 then some "DocumentValidationFailure"
  else none

/-- The document that details hold under `keyValue` or, if they have no such entry, under
    `keyPattern`. -/
def duplicateKey (details : Option Document) : Option Document := do
  let fields ← details
  match (Entries.find? fields "keyValue").orElse fun _ => Entries.find? fields "keyPattern" with
  | some (.document key) => some key
  | _ => none

/-- The info of a report with a code. -/
def coded (type : String) (code : Int) (message : String) (key : Option Document) : FailureInfo :=
  ⟨some type, some code, codeName? code, some message, key⟩

/-- The info of a report with a message alone. -/
def uncoded (type : Option String) (message : String) : FailureInfo :=
  ⟨type, none, none, some message, none⟩

/-- The info of a turned-down write. -/
def ofWrite (type : String) (fault : WriteFault) : FailureInfo :=
  coded type fault.code fault.message (duplicateKey fault.details)

/-- The info of a missing acknowledgement. -/
def ofConcern (type : String) (fault : ConcernFault) : FailureInfo :=
  coded type fault.code fault.message none

/-- A member for each part that is present. -/
def member? (name : String) (value : Option Json) : List (String × Json) :=
  match value with
  | some v => [(name, v)]
  | none => []

/-- The info as an object. -/
def toJson (info : FailureInfo) : Json :=
  .obj (member? "type" (info.type.map .str) ++ member? "code" (info.code.map .int) ++
    member? "name" (info.name.map .str) ++ member? "message" (info.message.map .str) ++
    member? "key" (info.key.map fun key => .obj (Bson.reportedFields key)))

/-- The info as pretty text. -/
def text (info : FailureInfo) : String :=
  info.toJson.pretty

end FailureInfo

namespace BackendFailure

/-- The uniform summary of a failure.  Of several faults of one insert the first counts, and a
    missing acknowledgement counts only when there is none. -/
def info : BackendFailure → FailureInfo
  | command code message => .coded "mongo.command_error" code message none
  | write fault => .ofWrite "mongo.write_error" fault
  | writeConcern fault => .ofConcern "mongo.write_error" fault
  | insertMany (fault :: _) _ => .ofWrite "mongo.insert_many_error" fault
  | insertMany [] (some fault) => .ofConcern "mongo.insert_many_error" fault
  | insertMany [] none => ⟨some "mongo.insert_many_error", none, none, none, none⟩
  | authentication message => .uncoded (some "mongo.authentication_error") message
  | invalidArgument message => .uncoded (some "mongo.invalid_argument") message
  | serverSelection message => .uncoded (some "mongo.server_selection_error") message
  | other message => .uncoded none message

/-- The text of a failure: its info in an object, compact. -/
def message (failure : BackendFailure) : String :=
  (Json.obj [("backend_error", failure.info.toJson)]).compact

end BackendFailure

end ShellQuery
