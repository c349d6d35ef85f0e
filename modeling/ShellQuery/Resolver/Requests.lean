import ShellQuery.Resolver.Parameters
import ShellQuery.Result.Summary

/-!
# Requests for documents

`find` takes a filter and a projection, and the cursor modifiers of its tail.  `aggregate` takes the
stages of a pipeline, as one list or as parameters.  `insert` takes documents, `update` a filter, an
update and options, `remove` a filter and whether one document is enough.
-/

namespace ShellQuery.Call

/-! ## find -/

/-- The filter of a `find`, which matches everything when it is left out. -/
def findFilter (call : Call) : Except Error Document :=
  match call.parameters with
  | [] => .ok []
  | _ => call.document 0 "a filter document"

/-- The projection of a `find`: an object that is not empty.  Any other second parameter has no
    effect. -/
def findProjection (call : Call) : Except Error (Option Document) :=
  match call.parameter? 1 with
  | some (.obj (_ :: _)) => (call.document 1 "a projection document").map some
  | _ => .ok none

/-- The request of a `find`. -/
def findRequest (ns : Namespace) (call : Call) : Except Error Request := do
  call.ensureAtMost 2
  let filter ← call.findFilter
  let projection ← call.findProjection
  let modifiers ← call.modifiers
  ensureSigned64 modifiers.skip
  .ok (.send (.find ns filter projection modifiers))

/-! ## aggregate -/

/-- The stages of a pipeline: those in the one list, or the parameters. -/
def stages (call : Call) : List Json :=
  match call.parameters with
  | [.arr items] => items
  | parameters => parameters

/-- The request of an `aggregate`. -/
def aggregateRequest (ns : Namespace) (call : Call) : Except Error Request := do
  let pipeline ← Document.convertAll call.stages
  .ok (.send (.aggregate ns pipeline))

/-! ## insert -/

/-- The documents to insert: those of the one list, or the one document. -/
def insertDocuments (call : Call) : Except Error (List Document) :=
  match call.parameters with
  | [.arr items] => Document.convertAll items
  | [.obj fields] => Document.convertAll [.obj fields]
  | _ => .error (ParameterFault.error .notInsertable)

/-- The request of an `insert`.  Inserting nothing needs no command. -/
def insertRequest (ns : Namespace) (call : Call) : Except Error Request := do
  match ← call.insertDocuments with
  | [] => .ok (.answer WriteSummary.empty.toJson)
  | documents => .ok (.send (.insert ns documents))

/-! ## update -/

/-- The update of an `update`. -/
def updateDocument (call : Call) : Except Error Document :=
  match call.parameter? 1 with
  | some (.obj spec) => UpdateSpec.convert (.obj spec)
  | _ => .error (ParameterFault.error (.missing .update "an update document" 2))

/-- The options of an `update`, none for `null`. -/
def updateOptions (call : Call) : Except Error (Entries Json) :=
  match call.parameter? 2 with
  | some (.obj options) => .ok options
  | some .null => .ok []
  | none => .ok []
  | some other =>
    .error (ParameterFault.error (.unexpected .update "an options object" 3 other))

/-- The request of an `update`. -/
def updateRequest (ns : Namespace) (call : Call) : Except Error Request := do
  call.ensureAtMost 3
  let filter ← call.document 0 "a filter document"
  let update ← call.updateDocument
  let options ← call.updateOptions
  let multi ← optionFlag options "multi"
  let upsert ← optionFlag options "upsert"
  ensureUpdate update
  .ok (.send (.update ns filter update multi upsert))

/-! ## remove -/

/-- Whether a `remove` is to stop after one document: a flag, or an object with the flag
    `justOne`. -/
def justOne (call : Call) : Except Error Bool :=
  match call.parameter? 1 with
  | some (.obj options) => optionFlag options "justOne"
  | some v =>
    match v.flag? with
    | some b => .ok b
    | none => .error (ParameterFault.error (.unexpected .remove "a justOne flag" 2 v))
  | none => .ok false

/-- The request of a `remove`.  Without parameters it removes everything. -/
def removeRequest (ns : Namespace) (call : Call) : Except Error Request := do
  call.ensureAtMost 2
  if call.parameters.isEmpty then .ok (.send (.delete ns [] false))
  else
    let filter ← call.document 0 "a filter document"
    let justOne ← call.justOne
    .ok (.send (.delete ns filter justOne))

end ShellQuery.Call
