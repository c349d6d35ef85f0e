import ShellQuery.Bson.Extended.Reader
import ShellQuery.Bson.Extended.Printer
import ShellQuery.Error

/-!
# Documents from query parameters and for results

Parameters are JSON values that become documents; results are documents that become JSON values.
An update that names plain fields stands for an update with the operator `$set`.
-/

namespace ShellQuery

/-! ## From JSON -/

/-- The stored value of a JSON value. -/
def Bson.convert (v : Json) : Except Error Bson :=
  match Bson.ofJson? v with
  | some b => .ok b
  | none => .error (.conversion (.invalid "the value breaks the form of its wrapper"))

namespace Document

/-- The document of a JSON object that is no wrapper. -/
def convert (v : Json) : Except Error Document := do
  match ← Bson.convert v with
  | .document fields => .ok fields
  | other => .error (.conversion (.notADocument other.typeName))

/-- The documents of JSON objects, up to the first that is none. -/
def convertAll : List Json → Except Error (List Document)
  | [] => .ok []
  | v :: rest => do
    let first ← convert v
    let others ← convertAll rest
    .ok (first :: others)

/-- The document of an optional value; `null` counts as absent. -/
def convertOptional : Option Json → Except Error (Option Document)
  | none => .ok none
  | some .null => .ok none
  | some v => (convert v).map some

/-! ## To JSON -/

/-- The relaxed form of a document. -/
def toJson (fields : Document) : Json :=
  (Bson.document fields).relaxed

/-- The relaxed form of a document that may be missing. -/
def optionalJson : Option Document → Json
  | some fields => toJson fields
  | none => .null

end Document

/-! ## Updates -/

namespace UpdateSpec

/-- Whether a name is one of an operator. -/
def isOperator (name : String) : Bool :=
  name.toList.head? = some '$'

/-- The entries of the operators other than `$set`. -/
def operators (spec : Entries Json) : Entries Json :=
  spec.filter fun e => isOperator e.1 && e.1 != "$set"

/-- The entries of plain fields. -/
def plainFields (spec : Entries Json) : Entries Json :=
  spec.filter fun e => !isOperator e.1

/-- The fields that the operator `$set` sets already. -/
def setFields (spec : Entries Json) : Entries Json :=
  match Entries.find? spec "$set" with
  | some (.obj fields) => fields
  | _ => []

/-- The same update with all plain fields under `$set`, behind the other operators. -/
def normalForm (spec : Entries Json) : Entries Json :=
  let fields := Entries.putAll (setFields spec) (plainFields spec)
  if !fields.isEmpty || Entries.has spec "$set" then operators spec ++ [("$set", .obj fields)]
  else operators spec

/-- The document of an update. -/
def convert : Json → Except Error Document
  | .obj spec => Document.convert (.obj (normalForm spec))
  | _ => .error (.conversion .notAnUpdate)

end UpdateSpec

/-! ## Filters by id -/

namespace IdFilter

/-- The text between a pair of double quotes, or the text itself when it has no such pair. -/
def unquote (s : List Char) : List Char :=
  match s with
  | '"' :: rest =>
    match rest.getLast? with
    | some '"' => rest.dropLast
    | _ => s
  | _ => s

/-- The wrapper of an id that is given as text; blank text gives none. -/
def wrapper? (id : String) : Option Json :=
  match unquote (Text.trim id.toList) with
  | [] => none
  | digits => some (.obj [("$oid", .str (String.ofList digits))])

/-- The filter for an id under a field; without the name of a field it is the wrapper alone. -/
def ofText? (id : String) (field : Option String) : Option Json :=
  (wrapper? id).map fun wrapper =>
    match field with
    | some name => if name.isEmpty then wrapper else .obj [(name, wrapper)]
    | none => wrapper

end IdFilter

end ShellQuery
