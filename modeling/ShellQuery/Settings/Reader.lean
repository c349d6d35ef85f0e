import ShellQuery.Settings.Basic
import ShellQuery.Settings.Datum
import ShellQuery.Toml.Reader

/-!
# Reading settings

A record is a table of its fields, or a list of their values in order; a field that is not there
takes its default, and names that no field has are ignored.  Settings are checked as soon as they
have been read.
-/

namespace ShellQuery

/-! ## Fields -/

/-- The value of a field, at its name in a table or at its place in a list. -/
def Datum.field? (name : String) (place : Nat) : Datum → Option Datum
  | .table entries => Entries.find? entries name
  | .list items => items[place]?
  | _ => none

/-- Whether the datum can be a record with the given number of fields. -/
def Datum.isRecord (dialect : Dialect) (size : Nat) : Datum → Bool
  | .table _ => true
  | .list items => dialect.allowsMore || items.length ≤ size
  | _ => false

/-- Read a field; a field that is not there has a default. -/
def Datum.read {α : Type} (record : Datum) (name : String) (place : Nat) (default : α)
    (value? : Datum → Option α) : Option α :=
  match record.field? name place with
  | some d => value? d
  | none => some default

/-- A text. -/
def Datum.text? : Datum → Option String
  | .text s => some s
  | _ => none

/-- A truth value. -/
def Datum.bool? : Datum → Option Bool
  | .bool b => some b
  | _ => none

/-- A number of 16 bits. -/
def Datum.port? : Datum → Option Nat
  | .integer i => if 0 ≤ i ∧ i < 65536 then some i.toNat else none
  | _ => none

/-- A value that may be `null`. -/
def Datum.optional? {α : Type} (value? : Datum → Option α) : Datum → Option (Option α)
  | .null => some none
  | d => (value? d).map some

/-- A level, as its name or as the name of a single entry that holds nothing. -/
def Datum.level? (dialect : Dialect) : Datum → Option LogLevel
  | .text s => LogLevel.ofName? s
  | .table [(name, d)] => if dialect.isNothing d then LogLevel.ofName? name else none
  | _ => none

/-! ## Records -/

/-- The settings of the backend. -/
def PersistenceSettings.ofDatum? (dialect : Dialect) (d : Datum) : Option PersistenceSettings :=
  if d.isRecord dialect 9 then do
    let url ← d.read "url" 0 none (Datum.optional? Datum.text?)
    let host ← d.read "host" 1 "localhost" Datum.text?
    let port ← d.read "port" 2 27017 Datum.port?
    let username ← d.read "username" 3 none (Datum.optional? Datum.text?)
    let password ← d.read "password" 4 none (Datum.optional? Datum.text?)
    let database ← d.read "database" 5 none (Datum.optional? Datum.text?)
    let enableSsl ← d.read "enable_ssl" 6 none (Datum.optional? Datum.bool?)
    let normalizeIdFields ← d.read "normalizeIdFields" 7 false Datum.bool?
    let allowServerEval ← d.read "allow_server_eval" 8 false Datum.bool?
    some ⟨url, host, port, username, password, database, enableSsl, normalizeIdFields,
      allowServerEval⟩
  else none

/-- The settings of the log. -/
def LogLevel.ofDatum? (dialect : Dialect) (d : Datum) : Option LogLevel :=
  if d.isRecord dialect 1 then d.read "level" 0 LogLevel.warn (Datum.level? dialect) else none

/-- All settings, before they are checked. -/
def Settings.ofDatum? (dialect : Dialect) (d : Datum) : Option Settings :=
  if d.isRecord dialect 2 then do
    let persistence ←
      d.read "persistence" 0 PersistenceSettings.default (PersistenceSettings.ofDatum? dialect)
    let level ← d.read "logging" 1 LogLevel.warn (LogLevel.ofDatum? dialect)
    some ⟨persistence, level⟩
  else none

namespace Settings

/-- The settings of a datum, checked. -/
def ofDatum (dialect : Dialect) (d : Option Datum) : Except Error Settings :=
  match d.bind (Settings.ofDatum? dialect) with
  | some s => s.validated
  | none => .error (.settings (.invalidFormat "the settings do not have the expected form"))

/-- The settings of a JSON value. -/
def ofJson (v : Json) : Except Error Settings :=
  ofDatum .json (some v.datum)

/-- The settings of a TOML document. -/
def ofToml (text : String) : Except Error Settings :=
  ofDatum .toml ((Toml.parse? text).map fun entries => (Toml.table entries).datum)

/-! ## Files -/

/-- What reading a file gives. -/
inductive FileText where
  | absent
  | unreadable
  | content (text : String)

/-- The settings of a file. -/
def ofFile (path : String) : FileText → Except Error Settings
  | .absent => .error (.settings (.fileNotFound path))
  | .unreadable => .error (.settings (.invalidFormat "the file cannot be read"))
  | .content text => ofToml text

end Settings

/-! ## Writing -/

/-- The settings of the backend as an object with the names that are read. -/
def PersistenceSettings.toJson (p : PersistenceSettings) : Json :=
  let text := fun (s : Option String) => match s with
    | some s => Json.str s
    | none => Json.null
  .obj [("url", text p.url), ("host", .str p.host), ("port", .int p.port),
    ("username", text p.username), ("password", text p.password), ("database", text p.database),
    ("enable_ssl", match p.enableSsl with
      | some b => .bool b
      | none => .null),
    ("normalizeIdFields", .bool p.normalizeIdFields),
    ("allow_server_eval", .bool p.allowServerEval)]

/-- All settings as an object with the names that are read. -/
def Settings.toJson (s : Settings) : Json :=
  .obj [("persistence", s.persistence.toJson), ("logging", .obj [("level", .str s.level.name)])]

end ShellQuery
