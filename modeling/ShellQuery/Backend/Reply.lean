import ShellQuery.Backend.Command
import ShellQuery.Backend.Failure
import ShellQuery.Bson.Extended.Reader
import ShellQuery.Result.Summary

/-!
# Replies of the backend

A reply is an object whose values are Extended JSON.  What it means depends on the command that it
answers: `Command.result?` reads a reply as the result of its command, or as a failure.
-/

namespace ShellQuery

/-! ## Reports of failures -/

namespace Reply

/-- The text under a name, empty when there is none. -/
def text (entries : Entries Json) (name : String) : String :=
  ((Entries.find? entries name).bind Json.text?).getD ""

/-- The code of a failure. -/
def code (entries : Entries Json) : Int :=
  ((Entries.find? entries "code").bind Json.int?).getD 0

/-- A document under a name. -/
def document? (entries : Entries Json) (name : String) : Option Document :=
  ((Entries.find? entries name).bind Json.entries?).bind Bson.ofFields?

/-- The members of an object; other values have none. -/
def members (v : Json) : Entries Json :=
  v.entries?.getD []

/-- The items of a list under a name. -/
def items (entries : Entries Json) (name : String) : List Json :=
  match Entries.find? entries name with
  | some (.arr list) => list
  | _ => []

/-- A turned-down write. -/
def writeFault (entries : Entries Json) : WriteFault :=
  ⟨code entries, text entries "errmsg", document? entries "errInfo"⟩

/-- A missing acknowledgement; its text stands under one of two names. -/
def concernFault (entries : Entries Json) : ConcernFault :=
  ⟨code entries, if Entries.has entries "message" then text entries "message"
    else text entries "errmsg"⟩

/-- The turned-down writes of a reply. -/
def writeFaults (entries : Entries Json) : List WriteFault :=
  (items entries "writeErrors").map fun v => writeFault (members v)

/-- The missing acknowledgement of a reply. -/
def concern? (entries : Entries Json) : Option ConcernFault :=
  ((Entries.find? entries "writeConcernError").bind Json.entries?).map concernFault

/-- The failure of a whole command. -/
def commandFailure (entries : Entries Json) : BackendFailure :=
  .command (code entries) (text entries "errmsg")

/-- The failure of a whole command, when the reply is one. -/
def commandFailure? (reply : Json) : Option BackendFailure :=
  ((reply.property? "commandError").bind Json.entries?).map commandFailure

/-- The failure of a single update or delete.  A turned-down write counts before a missing
    acknowledgement. -/
def writeFailure? (entries : Entries Json) : Option BackendFailure :=
  match writeFaults entries, concern? entries with
  | fault :: _, _ => some (.write fault)
  | [], some fault => some (.writeConcern fault)
  | [], none => none

/-- The failure of an insert. -/
def insertFailure? (entries : Entries Json) : Option BackendFailure :=
  match writeFaults entries, concern? entries with
  | [], none => none
  | faults, concern => some (.insertMany faults concern)

/-! ## Contents -/

/-- A count under a name, zero when there is none. -/
def count (entries : Entries Json) (name : String) : UInt64 :=
  ((Entries.find? entries name).bind WriteSummary.count?).getD 0

/-- A document of a reply as a result. -/
def documentResult (v : Json) : Json :=
  match Bson.ofFields? (members v) with
  | some fields => (Bson.document fields).relaxed
  | none => .null

/-- The key of a new document: the digits of an object id, a text as it is, compact JSON for any
    other id. -/
def idKey : Bson → String
  | .objectId id => id.text
  | .string s => s
  | other => other.relaxed.compact

/-- The ids of documents that were sent, each with the place of its document. -/
def insertedIds (documents : List Document) : List (Nat × Bson) :=
  documents.zipIdx.map fun e => (e.2, (Entries.find? e.1 "_id").getD .null)

/-- Put an id in front of the first one whose place is not before its own. -/
def insertPlaced (id : Nat × Bson) : List (Nat × Bson) → List (Nat × Bson)
  | [] => [id]
  | first :: rest => if id.1 ≤ first.1 then id :: first :: rest else first :: insertPlaced id rest

/-- Ids in the order of their places. -/
def sortPlaced : List (Nat × Bson) → List (Nat × Bson)
  | [] => []
  | first :: rest => insertPlaced first (sortPlaced rest)

/-- The keys of new documents in the order of their places.  The ids may come in any order. -/
def insertedKeys (ids : List (Nat × Bson)) : List String :=
  (sortPlaced ids).map fun e => idKey e.2

/-- The documents of one batch of a cursor. -/
def batch : Json → Except BackendFailure (List Json)
  | .arr documents => .ok (documents.map documentResult)
  | other =>
    match commandFailure? other with
    | some failure => .error failure
    | none => .ok []

/-- The documents of all batches in order, up to the first that fails. -/
def allBatches : List Json → Except BackendFailure (List Json)
  | [] => .ok []
  | b :: rest => do
    let documents ← batch b
    let more ← allBatches rest
    .ok (documents ++ more)

/-- The documents of a cursor, which come in one list or in batches. -/
def cursor (entries : Entries Json) : Except BackendFailure (List Json) :=
  if Entries.has entries "batches" then allBatches (items entries "batches")
  else .ok ((items entries "docs").map documentResult)

/-- The keys of documents that an update has created. -/
def upsertedKeys (entries : Entries Json) : List String :=
  match (Entries.find? entries "upsertedId").bind Bson.ofJson? with
  | some id => [idKey id]
  | none => []

/-- The summary of an update or delete, unless it failed. -/
def written (entries : Entries Json) (counter : String) (keys : List String) :
    Except BackendFailure Json :=
  match writeFailure? entries with
  | some failure => .error failure
  | none => .ok (WriteSummary.toJson ⟨count entries counter, keys⟩)

end Reply

/-! ## Results -/

/-- What a reply that is no failure of the whole command means for the command that was sent. -/
def Command.resultOf (reply : Entries Json) : Command → Except BackendFailure Json
  | find _ _ _ _ => (Reply.cursor reply).map .arr
  | aggregate _ _ =>
    match Reply.items reply "docs" with
    | first :: _ => .ok (Reply.documentResult first)
    | [] => .ok .null
  | insert _ documents =>
    match Reply.insertFailure? reply with
    | some failure => .error failure
    | none =>
      .ok (WriteSummary.toJson
        ⟨documents.length.toUInt64, Reply.insertedKeys (Reply.insertedIds documents)⟩)
  | update _ _ _ _ _ => Reply.written reply "nModified" (Reply.upsertedKeys reply)
  | delete _ _ _ => Reply.written reply "n" []
  | findAndModify _ _ _ _ =>
    match Entries.find? reply "value" with
    | some (.obj fields) => .ok (Reply.documentResult (.obj fields))
    | _ => .ok .null
  | eval _ _ =>
    match (Entries.find? reply "retval").bind Bson.ofJson? with
    | some value => .ok value.relaxed
    | none => .ok .null
  | listDatabases => .ok .null

/-- What a reply means for the command that was sent. -/
def Command.result (command : Command) (reply : Json) : Except BackendFailure Json :=
  match Reply.commandFailure? reply with
  | some failure => .error failure
  | none => command.resultOf (Reply.members reply)

end ShellQuery
