import ShellQuery.Backend.Scripted
import ShellQuery.Query.ScriptText
import ShellQuery.Resolver.FindAndModify
import ShellQuery.Resolver.Requests

/-!
# Resolving queries

A query is resolved in two parts.  `Resolver.request` says what the query asks for; it touches no
backend and can fail.  `Resolver.resolve` then sends the one command of a request, if it has one.
-/

namespace ShellQuery

/-- How queries are resolved: the database that is meant when a query names none, and whether the
    server may evaluate scripts. -/
structure Resolver where
  database : Option String
  allowServerEval : Bool
deriving DecidableEq, Repr

namespace Resolver

/-- A resolver; a blank name stands for no database. -/
def make (database : Option String) (allowServerEval : Bool) : Resolver :=
  ⟨database.filter fun name => !Text.blankOnly name, allowServerEval⟩

/-! ## Requests -/

/-- The database that a query means. -/
def databaseFor (r : Resolver) (named : Option String) : Except Error String :=
  match named with
  | some name => .ok name
  | none =>
    match r.database with
    | some name => .ok name
    | none => .error (ParameterFault.error .noDatabase)

/-- What an operation of a call asks for. -/
def operationRequest (ns : Namespace) (call : Call) : Except Error Request :=
  match call.operation with
  | .find => call.findRequest ns
  | .findAndModify => call.findAndModifyRequest ns
  | .aggregate => call.aggregateRequest ns
  | .insert => call.insertRequest ns
  | .update => call.updateRequest ns
  | .remove => call.removeRequest ns
  | .save => .error (Unsupported.error .save)

/-- What a call asks for. -/
def callRequest (r : Resolver) (call : Call) : Except Error Request := do
  let database ← r.databaseFor call.database
  operationRequest ⟨database, call.collection⟩ call

/-- What a script asks for. -/
def scriptRequest (r : Resolver) (script : Script) : Except Error Request :=
  if r.allowServerEval then do
    let database ← r.databaseFor script.database
    .ok (.send (.eval database (ScriptText.program script.text)))
  else .error (Unsupported.error .serverEval)

/-- What a query asks for. -/
def queryRequest (r : Resolver) : Query → Except Error Request
  | .call call => r.callRequest call
  | .script script => r.scriptRequest script

/-- What the text of a query asks for. -/
def request (r : Resolver) (text : String) : Except Error Request := do
  let query ← Query.parse text
  r.queryRequest query

/-! ## Resolving -/

/-- Carry out a request. -/
def perform (b : Backend) : Request → Except Error Json × Backend
  | .answer value => (.ok value, b)
  | .send command =>
    let (outcome, b) := b.step command
    (outcome.mapError .backend, b)

/-- Resolve a query: its result, and the backend afterwards. -/
def resolve (r : Resolver) (text : String) (b : Backend) : Except Error Json × Backend :=
  match r.request text with
  | .ok request => perform b request
  | .error e => (.error e, b)

/-- A query that fails before there is a request leaves the backend alone. -/
theorem resolve_of_request_error {r : Resolver} {text : String} {e : Error} (b : Backend)
    (h : r.request text = .error e) : r.resolve text b = (.error e, b) := by
  simp [resolve, h]

end Resolver

end ShellQuery
