import ShellQuery.Error
import ShellQuery.Json.Reader
import ShellQuery.Query.Chain

/-!
# Reading a query

A query is a call `db.collection.operation(parameters)` with an optional tail of chained calls, or
a script, which ends with a semicolon.  The root `db.` may be left out.  A head of more than two
names starts with a database; all names between it and the operation make up the collection.
-/

namespace ShellQuery

/-! ## Queries -/

/-- A call of an operation on a collection. -/
structure Call where
  database : Option String
  collection : String
  operation : Operation
  parameters : List Json
  tail : String

/-- A statement that the server is to evaluate. -/
structure Script where
  database : Option String
  collection : String
  text : String

/-- A query that has been read. -/
inductive Query where
  | call (call : Call)
  | script (script : Script)

/-- The cursor modifiers in the tail of a call. -/
def Call.modifiers (call : Call) : Except Error Modifiers :=
  (Modifiers.ofTail call.tail.toList).mapError Malformed.error

namespace Query

/-! ## The head -/

/-- The text without the root `db.` in front, which is recognised in any case. -/
def dropRoot : List Char → List Char
  | d :: b :: '.' :: rest =>
    if d.toLower = 'd' ∧ b.toLower = 'b' then rest else d :: b :: '.' :: rest
  | s => s

/-- The names of a head, trimmed. -/
def headNames (head : List Char) : List (List Char) :=
  (Text.splitOn '.' head).map Text.trim

/-- The namespace that the names of a head stand for. -/
structure Target where
  database : Option (List Char)
  collection : List (List Char)

/-- With more than two names the first is the database and the last the operation; with fewer the
    first is the collection. -/
def Target.ofNames : List (List Char) → Target
  | first :: second :: third :: rest =>
    ⟨some first, second :: (third :: rest).dropLast⟩
  | first :: _ => ⟨none, [first]⟩
  | [] => ⟨none, [[]]⟩

/-- The collection's name. -/
def Target.collectionName (target : Target) : String :=
  String.ofList (['.'].intercalate target.collection)

/-- Every name of a target must be there. -/
def Target.check (target : Target) : Except Malformed Unit :=
  if target.collection.any List.isEmpty then .error .noCollection
  else if target.database = some [] then .error .emptyDatabase
  else .ok ()

/-- The operation that the last name of a head stands for. -/
def operationOf (names : List (List Char)) (target : Target) : Except Error Operation :=
  match names with
  | _ :: second :: rest =>
    let name := (second :: rest).getLast (by simp)
    if name.isEmpty then .error (Malformed.error .noOperation)
    else
      match Operation.ofName? (String.ofList name) with
      | some operation => .ok operation
      | none => .error (Unsupported.error (.operation (String.ofList name)))
  | _ => .error (Malformed.error (.noOperationAfter target.collectionName))

/-! ## Parameters -/

/-- The parameters between the parentheses of a call: nothing, or values separated by commas. -/
def readParameters (block : List Char) : Except Error (List Json) :=
  if (Text.dropBlank block).isEmpty then .ok []
  else
    match Json.read? ('[' :: (block ++ [']'])) with
    | some (.arr parameters) => .ok parameters
    | _ => .error (.query (.parameterBlock "the parameters are no list of JSON values"))

/-! ## Queries -/

/-- Read the text of a query. -/
def parse (text : String) : Except Error Query := do
  let trimmed := Text.trim text.toList
  let body := dropRoot trimmed
  match Text.splitFirst? '(' body with
  | none => .error (Malformed.error .noParenthesis)
  | some (head, after) =>
    let names := headNames head
    let target := Target.ofNames names
    target.check.mapError Malformed.error
    let database := target.database.map String.ofList
    if trimmed.getLast? = some ';' then
      .ok (.script ⟨database, target.collectionName, String.ofList trimmed⟩)
    else
      let operation ← operationOf names target
      let g ← (Bracket.group (Text.byteLength head) ('(' :: after)).mapError Malformed.error
      let parameters ← readParameters g.inside
      .ok (.call ⟨database, target.collectionName, operation, parameters,
        String.ofList (Text.trim g.rest)⟩)

end Query

/-- Read the text of a query that must be a call. -/
def Call.parse (text : String) : Except Error Call :=
  match Query.parse text with
  | .ok (.call call) => .ok call
  | .ok (.script _) => .error (Malformed.error .notACall)
  | .error e => .error e

end ShellQuery
