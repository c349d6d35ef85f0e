import ShellQuery.Bson.Extended.Printer
import ShellQuery.Query.Chain

/-!
# Commands to the backend

A command is one request to the backend.  It carries stored values: all conversions of a query's
parameters are done before there is a command.
-/

namespace ShellQuery

/-! ## Parts of commands -/

/-- A database and one of its collections. -/
structure Namespace where
  database : String
  collection : String
deriving DecidableEq, Repr

/-- Rules for comparing texts. -/
structure Collation where
  locale : String
  strength : Option Nat
  caseLevel : Option Bool
  caseFirst : Option String
  numericOrdering : Option Bool
  alternate : Option String
  maxVariable : Option String
  normalization : Option Bool
  backwards : Option Bool
deriving DecidableEq, Repr

/-- What happens to the document that is found. -/
inductive Change where
  | update (document : Document) (returnNew upsert : Bool) (bypassValidation : Option Bool)
  | remove

/-- What a find-and-modify command may hold besides query and change. -/
structure FindOptions where
  sort : Option Document
  fields : Option Document
  maxTimeMs : Option Nat
  collation : Option Collation

/-- A request to the backend. -/
inductive Command where
  | find (ns : Namespace) (filter : Document) (projection : Option Document)
      (modifiers : Modifiers)
  | aggregate (ns : Namespace) (pipeline : List Document)
  | insert (ns : Namespace) (documents : List Document)
  | update (ns : Namespace) (filter update : Document) (multi upsert : Bool)
  | delete (ns : Namespace) (filter : Document) (justOne : Bool)
  | findAndModify (ns : Namespace) (query : Document) (change : Change) (options : FindOptions)
  | eval (database code : String)
  | listDatabases

namespace Command

/-! ## Ids of new documents -/

/-- The ids that a client makes up, in order. -/
abbrev IdSupply := Nat → ObjectId

/-- The ids behind the first. -/
def IdSupply.rest (ids : IdSupply) : IdSupply :=
  fun n => ids (n + 1)

/-- A document with an id in front, when it has none, and the ids that are left. -/
def stampDocument (ids : IdSupply) (fields : Document) : Document × IdSupply :=
  if Entries.has fields "_id" then (fields, ids)
  else (("_id", .objectId (ids 0)) :: fields, ids.rest)

/-- Documents that all have an id. -/
def stampAll (ids : IdSupply) : List Document → List Document × IdSupply
  | [] => ([], ids)
  | fields :: rest =>
    let (stamped, ids) := stampDocument ids fields
    let (others, ids) := stampAll ids rest
    (stamped :: others, ids)

/-- The command as it is sent: documents to insert have ids. -/
def stamp (ids : IdSupply) : Command → Command × IdSupply
  | insert ns documents =>
    let (documents, ids) := stampAll ids documents
    (insert ns documents, ids)
  | command => (command, ids)

/-! ## The report of a command -/

/-- A document in a report. -/
def documentJson (fields : Document) : Json :=
  (Bson.document fields).canonical

/-- A list of documents in a report. -/
def documentsJson (documents : List Document) : Json :=
  .arr (documents.map documentJson)

/-- An entry for a part that is present. -/
def part {α : Type} (name : String) (write : α → Json) : Option α → List (String × Json)
  | some value => [(name, write value)]
  | none => []

/-- A natural number in a report. -/
def natJson (n : Nat) : Json :=
  .int n

/-- The head of a report. -/
def head (op : String) (ns : Namespace) : List (String × Json) :=
  [("op", .str op), ("db", .str ns.database), ("coll", .str ns.collection)]

/-- The modifiers of a cursor.  A negative limit asks for a single batch of that many. -/
def modifierParts (m : Modifiers) : List (String × Json) :=
  part "limit" (fun n => natJson n.natAbs) m.limit ++ part "skip" natJson m.skip ++
    (if m.limit.any (· < 0) then [("singleBatch", .bool true)] else [])

/-- A collation in a report. -/
def collationJson (c : Collation) : Json :=
  .obj ([("locale", .str c.locale)] ++ part "strength" natJson c.strength ++
    part "caseLevel" .bool c.caseLevel ++ part "caseFirst" .str c.caseFirst ++
    part "numericOrdering" .bool c.numericOrdering ++ part "alternate" .str c.alternate ++
    part "maxVariable" .str c.maxVariable ++ part "normalization" .bool c.normalization ++
    part "backwards" .bool c.backwards)

/-- The change of a found document in a report. -/
def changeParts : Change → List (String × Json)
  | .update document returnNew upsert bypassValidation =>
    [("update", documentJson document), ("new", .bool returnNew)] ++
      (if upsert then [("upsert", .bool true)] else []) ++
      part "bypassDocumentValidation" .bool bypassValidation
  | .remove => [("remove", .bool true)]

/-- The report of a command. -/
def toJson : Command → Json
  | find ns filter projection modifiers =>
    .obj (head "find" ns ++ [("filter", documentJson filter)] ++
      part "projection" documentJson projection ++ modifierParts modifiers)
  | aggregate ns pipeline =>
    .obj (head "aggregate" ns ++ [("pipeline", documentsJson pipeline)])
  | insert ns documents => .obj (head "insert" ns ++ [("documents", documentsJson documents)])
  | update ns filter changes multi upsert =>
    .obj (head "update" ns ++ [("filter", documentJson filter), ("update", documentJson changes),
      ("multi", .bool multi), ("upsert", .bool upsert)])
  | delete ns filter justOne =>
    .obj (head "delete" ns ++
      [("filter", documentJson filter), ("limit", natJson (if justOne then 1 else 0))])
  | findAndModify ns query change options =>
    .obj (head "findAndModify" ns ++ [("query", documentJson query)] ++ changeParts change ++
      part "sort" documentJson options.sort ++ part "fields" documentJson options.fields ++
      part "maxTimeMS" natJson options.maxTimeMs ++
      part "collation" collationJson options.collation)
  | eval database code =>
    .obj [("op", .str "eval"), ("db", .str database), ("code", .str code)]
  | listDatabases => .obj [("op", .str "listDatabases"), ("db", .str "admin")]

end Command

end ShellQuery
