import ShellQuery.Resolver.Parameters

/-!
# Finding and modifying one document

`findAndModify` takes one object, its specification.  The entries are read in the order in which
they are written, and the first that does not fit decides the error.  Entries with other names have
no meaning.
-/

namespace ShellQuery

/-! ## Collations -/

namespace Collation

/-- A value that may be `null` or missing. -/
def optional? {α : Type} (read : Json → Option α) : Option Json → Option (Option α)
  | none => some none
  | some .null => some none
  | some v => (read v).map some

/-- One of the given words, as a text or as the name of a `null`. -/
def word? (words : List String) : Json → Option String
  | .str s => if words.contains s then some s else none
  | .obj [(s, .null)] => if words.contains s then some s else none
  | _ => none

/-- A number from one to five. -/
def strength? : Json → Option Nat :=
  Json.natural? 1 6

/-- The names of the fields in their order. -/
def names : List String :=
  ["locale", "strength", "caseLevel", "caseFirst", "numericOrdering", "alternate", "maxVariable",
   "normalization", "backwards"]

/-- The fields of a collation, as an object or as the list of all their values. -/
def fields? : Json → Option (Entries Json)
  | .obj entries => some entries
  | .arr items => if items.length = names.length then some (names.zip items) else none
  | _ => none

/-- Read a collation. -/
def read? (v : Json) : Option Collation := do
  let entries ← fields? v
  let locale ← (Entries.find? entries "locale").bind Json.text?
  let strength ← optional? strength? (Entries.find? entries "strength")
  let caseLevel ← optional? Json.bool? (Entries.find? entries "caseLevel")
  let caseFirst ← optional? (word? ["upper", "lower", "off"]) (Entries.find? entries "caseFirst")
  let numericOrdering ← optional? Json.bool? (Entries.find? entries "numericOrdering")
  let alternate ←
    optional? (word? ["non-ignorable", "shifted"]) (Entries.find? entries "alternate")
  let maxVariable ← optional? (word? ["punct", "space"]) (Entries.find? entries "maxVariable")
  let normalization ← optional? Json.bool? (Entries.find? entries "normalization")
  let backwards ← optional? Json.bool? (Entries.find? entries "backwards")
  some ⟨locale, strength, caseLevel, caseFirst, numericOrdering, alternate, maxVariable,
    normalization, backwards⟩

end Collation

/-! ## The specification -/

/-- What a `findAndModify` asks for. -/
structure Specification where
  query : Option Json
  sort : Option Json
  update : Option Json
  remove : Bool
  returnNew : Bool
  fields : Option Json
  upsert : Bool
  bypassValidation : Option Bool
  maxTimeMs : Option Nat
  collation : Option Collation

namespace Specification

/-- The specification without any entry. -/
def empty : Specification :=
  ⟨none, none, none, false, false, none, false, none, none, none⟩

/-- A value that counts as missing when it is `null`. -/
def present : Json → Option Json
  | .null => none
  | v => some v

/-- The flag of an entry. -/
def flag (v : Json) : Except ParameterFault Bool :=
  match v.flag? with
  | some b => .ok b
  | none => .error (.specificationFlag v)

/-- The value of an entry that may be `null` and else must have a given form. -/
def typed {α : Type} (read : Json → Option α) (v : Json) : Except ParameterFault (Option α) :=
  match v with
  | .null => .ok none
  | _ =>
    match read v with
    | some a => .ok (some a)
    | none => .error (.specification "an entry does not have the expected form")

/-- A natural number of 64 bits. -/
def natural? : Json → Option Nat :=
  Json.natural? 0 Text.bound64

/-- Add one entry. -/
def add (spec : Specification) (entry : String × Json) : Except ParameterFault Specification :=
  let v := entry.2
  match entry.1 with
  | "query" => .ok { spec with query := present v }
  | "sort" => .ok { spec with sort := present v }
  | "update" => .ok { spec with update := present v }
  | "fields" => .ok { spec with fields := present v }
  | "remove" => do .ok { spec with remove := ← flag v }
  | "new" => do .ok { spec with returnNew := ← flag v }
  | "upsert" => do .ok { spec with upsert := ← flag v }
  | "bypassDocumentValidation" => do .ok { spec with bypassValidation := ← typed Json.bool? v }
  | "maxTimeMS" => do .ok { spec with maxTimeMs := ← typed natural? v }
  | "collation" => do .ok { spec with collation := ← typed Collation.read? v }
  | _ => .ok spec

/-- The specification of an object. -/
def ofEntries (entries : Entries Json) : Except ParameterFault Specification :=
  entries.foldlM add empty

/-- The update, when it is an object. -/
def updateEntries? (spec : Specification) : Option (Entries Json) :=
  spec.update.bind Json.entries?

/-- The filter, which matches everything when it is left out. -/
def filter (spec : Specification) : Except Error Document :=
  (Document.convertOptional spec.query).map fun d => d.getD []

/-- The command that updates the document that is found. -/
def updateCommand (ns : Namespace) (spec : Specification) (entries : Entries Json) :
    Except Error Command := do
  let filter ← spec.filter
  let update ← UpdateSpec.convert (.obj entries)
  let sort ← Document.convertOptional spec.sort
  let fields ← Document.convertOptional spec.fields
  ensureUpdate update
  ensureSigned64 spec.maxTimeMs
  .ok (.findAndModify ns filter
    (.update update spec.returnNew spec.upsert spec.bypassValidation)
    ⟨sort, fields, spec.maxTimeMs, spec.collation⟩)

/-- The command that removes the document that is found. -/
def removeCommand (ns : Namespace) (spec : Specification) : Except Error Command := do
  let filter ← spec.filter
  let sort ← Document.convertOptional spec.sort
  let fields ← Document.convertOptional spec.fields
  ensureSigned64 spec.maxTimeMs
  .ok (.findAndModify ns filter .remove ⟨sort, fields, spec.maxTimeMs, spec.collation⟩)

/-- The command of a specification.  It must ask either for an update or for removal. -/
def command (ns : Namespace) (spec : Specification) : Except Error Command :=
  match spec.updateEntries?, spec.remove with
  | some entries, false => spec.updateCommand ns entries
  | none, true => spec.removeCommand ns
  | some _, true => .error (ParameterFault.error .updateAndRemove)
  | none, false => .error (ParameterFault.error .updateNorRemove)

end Specification

/-- The request of a `findAndModify`. -/
def Call.findAndModifyRequest (ns : Namespace) (call : Call) : Except Error Request :=
  match call.parameters with
  | [.obj entries] => do
    let spec ← (Specification.ofEntries entries).mapError ParameterFault.error
    let command ← spec.command ns
    .ok (.send command)
  | _ => .error (ParameterFault.error .notOneSpecification)

end ShellQuery
