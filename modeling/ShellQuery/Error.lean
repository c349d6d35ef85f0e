import ShellQuery.Backend.Failure
import ShellQuery.Query.Malformed
import ShellQuery.Query.Operation

/-!
# Errors

Every failure is one of a fixed set of causes, grouped by where it arises.  `Error.message` gives
the text of each; nothing else in the library words an error.
-/

namespace ShellQuery

/-! ## Causes -/

/-- A query text that cannot be read. -/
inductive QueryError where
  | malformed (cause : Malformed)
  | parameterBlock (reason : String)

/-- An operation that is not carried out. -/
inductive Unsupported where
  | operation (name : String)
  | save
  | serverEval

/-- Parameters that do not fit their operation. -/
inductive ParameterFault where
  | noDatabase
  | missing (operation : Operation) (what : String) (position : Nat)
  | unexpected (operation : Operation) (what : String) (position : Nat) (found : Json)
  | tooMany (operation : Operation) (most given : Nat)
  | notInsertable
  | optionFlag (name : String) (found : Json)
  | notOneSpecification
  | specificationFlag (found : Json)
  | specification (reason : String)
  | updateAndRemove
  | updateNorRemove
  | stated (text : String)

/-- A call that is not carried out. -/
inductive ExecutionError where
  | unsupported (what : Unsupported)
  | invalidParameters (fault : ParameterFault)

/-- A client that cannot be made or used. -/
inductive ConnectionError where
  | failed (text : String)
  | interrupted (reason : String)
  | invalidUri (reason : String)
  | notConnected
  | transactionFailed (reason : String)

/-- Settings that cannot be loaded or are not valid. -/
inductive SettingsError where
  | fileNotFound (path : String)
  | invalidFormat (reason : String)
  | missingField (field : String)
  | invalidValue (field value : String)

/-- A value that has no counterpart in the other notation. -/
inductive ConversionError where
  | notADocument (found : String)
  | notAnUpdate
  | invalid (reason : String)

/-- Any failure. -/
inductive Error where
  | query (error : QueryError)
  | execution (error : ExecutionError)
  | connection (error : ConnectionError)
  | settings (error : SettingsError)
  | backend (failure : BackendFailure)
  | conversion (error : ConversionError)
  | task (reason : String)

/-- Why a computation is broken off. -/
inductive Abort where
  | addOverflow
deriving DecidableEq, Repr

/-- How a computation ends without a result: with an error, or broken off before it has one. -/
inductive Fault where
  | error (error : Error)
  | abort (cause : Abort)

/-! ## Short forms -/

/-- The error of a query text that cannot be read. -/
def Malformed.error (cause : Malformed) : Error :=
  .query (.malformed cause)

/-- The error of parameters that do not fit. -/
def ParameterFault.error (fault : ParameterFault) : Error :=
  .execution (.invalidParameters fault)

/-- The error of an operation that is not carried out. -/
def Unsupported.error (what : Unsupported) : Error :=
  .execution (.unsupported what)

/-! ## Texts -/

/-- What is said of a computation that is broken off. -/
def Abort.message : Abort → String
  | addOverflow => "attempt to add with overflow"

/-- The text of a query error on its own. -/
def QueryError.message : QueryError → String
  | malformed cause => "Malformed query: " ++ cause.message
  | parameterBlock reason => "Invalid parameter block: " ++ reason

/-- What is not supported. -/
def Unsupported.message : Unsupported → String
  | operation name => name
  | save => "save is not supported, use insert or update"
  | serverEval => "server-side script evaluation is disabled (set allow_server_eval)"

/-- What does not fit. -/
def ParameterFault.message : ParameterFault → String
  | noDatabase => "no database selected: name one in the query or configure a default"
  | missing operation what position =>
    operation.name ++ " expects " ++ what ++ " as parameter " ++ Malformed.number position
  | unexpected operation what position found =>
    operation.name ++ " expects " ++ what ++ " as parameter " ++ Malformed.number position ++
      ", found " ++ found.compact
  | tooMany operation most given =>
    operation.name ++ " accepts at most " ++ Malformed.number most ++ " parameter(s), got " ++
      Malformed.number given
  | notInsertable => "insert expects one document or an array of documents"
  | optionFlag name found =>
    "option '" ++ name ++ "' expects a boolean flag, found " ++ found.compact
  | notOneSpecification => "findAndModify expects exactly one specification object"
  | specificationFlag found => "findAndModify: expected a boolean flag, found " ++ found.compact
  | specification reason => "findAndModify: " ++ reason
  | updateAndRemove => "findAndModify accepts either update or remove, not both"
  | updateNorRemove => "findAndModify requires either an update document or remove: true"
  | stated text => text

/-- The text of an execution error on its own. -/
def ExecutionError.message : ExecutionError → String
  | unsupported what => "Unsupported operation: " ++ what.message
  | invalidParameters fault => "Invalid parameters: " ++ fault.message

/-- The text of a connection error on its own. -/
def ConnectionError.message : ConnectionError → String
  | failed text => "Failed to connect: " ++ text
  | interrupted reason => "Failed to connect: connection task failed: " ++ reason
  | invalidUri reason => "Invalid connection options: " ++ reason
  | notConnected => "Not connected to MongoDB"
  | transactionFailed reason => "Transaction operation failed: " ++ reason

/-- The text of a settings error on its own. -/
def SettingsError.message : SettingsError → String
  | fileNotFound path => "Config file not found: " ++ path
  | invalidFormat reason => "Invalid config format: " ++ reason
  | missingField field => "Missing required field: " ++ field
  | invalidValue field value => "Invalid value '" ++ value ++ "' for field '" ++ field ++ "'"

/-- What cannot be converted. -/
def ConversionError.message : ConversionError → String
  | notADocument found => "expected a JSON object, found " ++ found
  | notAnUpdate => "update specification must be a JSON object"
  | invalid reason => reason

/-- The error by which the task of a computation tells how it ended. -/
def Fault.reported : Fault → Error
  | error e => e
  | abort cause => .task ("task panicked with message \"" ++ cause.message ++ "\"")

namespace Error

/-- The text of an error. -/
def message : Error → String
  | query error => "Error while parsing query: " ++ error.message
  | execution error => "Execution error: " ++ error.message
  | connection error => "Connection error: " ++ error.message
  | settings error => "Configuration error: " ++ error.message
  | backend failure => failure.message
  | conversion error => "Conversion error: " ++ error.message
  | task reason => "Task failed: " ++ reason

/-- The text of the error behind an error, when there is one.  Behind a backend failure stands the
    report of the backend, which the failure's own text already holds. -/
def cause? : Error → Option String
  | query error => some error.message
  | execution error => some error.message
  | connection error => some error.message
  | settings error => some error.message
  | backend failure => some failure.message
  | conversion _ => none
  | task _ => none

/-- Whether the query text itself could not be read. -/
def isMalformedQuery : Error → Bool
  | query _ => true
  | _ => false

/-- Whether the operation is not supported. -/
def isUnsupportedOperation : Error → Bool
  | execution (.unsupported _) => true
  | _ => false

end Error

end ShellQuery
