import Mathlib.Data.Finset.Basic
import ShellQuery.Proofs.Settings.Validity
import ShellQuery.Proofs.Toml.Writing

/-!
# Settings that are written

Settings are written as two tables of fields, in JSON or in TOML, and any of the fields may be left
out.  `Datum.Writes` says which data write a choice of the fields of given settings: each field has
its own name and table, and the order of tables and fields does not matter.

The main statement is `written_settings_read`: whatever is written is read as the chosen fields over
the defaults, and then checked, in both notations alike.
-/

namespace ShellQuery

theorem LogLevel.ofName?_name (level : LogLevel) : LogLevel.ofName? level.name = some level := by
  cases level <;> decide

namespace Settings

/-! ## Fields -/

/-- A field of the settings. -/
inductive Field where
  | url
  | host
  | port
  | username
  | password
  | database
  | enableSsl
  | normalizeIdFields
  | allowServerEval
  | level
deriving DecidableEq

namespace Field

/-- All fields in the order in which they are written. -/
def all : List Field :=
  [url, host, port, username, password, database, enableSsl, normalizeIdFields, allowServerEval,
    level]

/-- The name of the table that the field stands in. -/
def table : Field → String
  | level => "logging"
  | _ => "persistence"

/-- The name of the field in its table. -/
def name : Field → String
  | url => "url"
  | host => "host"
  | port => "port"
  | username => "username"
  | password => "password"
  | database => "database"
  | enableSsl => "enable_ssl"
  | normalizeIdFields => "normalizeIdFields"
  | allowServerEval => "allow_server_eval"
  | level => "level"

/-- The value of the field in settings; an optional field may have none. -/
def datum? (s : Settings) : Field → Option Datum
  | url => s.persistence.url.map .text
  | host => some (.text s.persistence.host)
  | port => some (.integer s.persistence.port)
  | username => s.persistence.username.map .text
  | password => s.persistence.password.map .text
  | database => s.persistence.database.map .text
  | enableSsl => s.persistence.enableSsl.map .bool
  | normalizeIdFields => some (.bool s.persistence.normalizeIdFields)
  | allowServerEval => some (.bool s.persistence.allowServerEval)
  | level => some (.text s.level.name)

theorem eq_level {f : Field} (h : f.table = "logging") : f = level := by
  cases f with
  | level => rfl
  | _ => exact absurd h (by decide)

end Field

variable {chosen : Finset Field} {s : Settings} {f : Field}

/-- The settings in the chosen fields, and the defaults in all others. -/
def keeping (chosen : Finset Field) (s : Settings) : Settings where
  persistence :=
    { url := if .url ∈ chosen then s.persistence.url else default.persistence.url
      host := if .host ∈ chosen then s.persistence.host else default.persistence.host
      port := if .port ∈ chosen then s.persistence.port else default.persistence.port
      username :=
        if .username ∈ chosen then s.persistence.username else default.persistence.username
      password :=
        if .password ∈ chosen then s.persistence.password else default.persistence.password
      database :=
        if .database ∈ chosen then s.persistence.database else default.persistence.database
      enableSsl :=
        if .enableSsl ∈ chosen then s.persistence.enableSsl else default.persistence.enableSsl
      normalizeIdFields :=
        if .normalizeIdFields ∈ chosen then s.persistence.normalizeIdFields
        else default.persistence.normalizeIdFields
      allowServerEval :=
        if .allowServerEval ∈ chosen then s.persistence.allowServerEval
        else default.persistence.allowServerEval }
  level := if .level ∈ chosen then s.level else default.level

/-! ## What is written -/

/-- What may stand under the name of a field: the value of a chosen field, nothing when the field is
    not chosen or has no value, or `null` for a chosen field without a value. -/
inductive Field.Shows (chosen : Finset Field) (s : Settings) (f : Field) : Option Datum → Prop where
  | value {d : Datum} (hf : f ∈ chosen) (hd : f.datum? s = some d) : f.Shows chosen s (some d)
  | absent (h : f ∉ chosen ∨ f.datum? s = none) : f.Shows chosen s none
  | null (hf : f ∈ chosen) (hd : f.datum? s = none) : f.Shows chosen s (some .null)

/-- The value of a field may stand under its name when the field is chosen, and nothing else. -/
theorem Field.Shows.of_eq {found : Option Datum}
    (h : found = if f ∈ chosen then f.datum? s else none) : f.Shows chosen s found := by
  subst h
  split
  · next hf =>
    cases hd : f.datum? s with
    | none => exact .absent (.inr hd)
    | some d => exact .value hf hd
  · next hf => exact .absent (.inl hf)

/-- What may stand under the name of a table: a table in which each field shows, or nothing when
    none has to. -/
inductive TableShows (chosen : Finset Field) (s : Settings) (table : String) :
    Option Datum → Prop where
  | present {entries : Entries Datum}
      (h : ∀ f : Field, f.table = table → f.Shows chosen s (Entries.find? entries f.name)) :
      TableShows chosen s table (some (.table entries))
  | absent (h : ∀ f : Field, f.table = table → f.Shows chosen s none) :
      TableShows chosen s table none

end Settings

/-- The datum writes the chosen fields of the settings under their names. -/
def Datum.Writes (chosen : Finset Settings.Field) (s : Settings) (d : Datum) : Prop :=
  ∃ tables, d = .table tables ∧
    ∀ table ∈ ["persistence", "logging"],
      Settings.TableShows chosen s table (Entries.find? tables table)

/-- In a table a field is looked up under its name. -/
theorem Datum.read_table {α : Type} (entries : Entries Datum) (name : String) (place : Nat)
    (default : α) (value? : Datum → Option α) :
    (Datum.table entries).read name place default value? =
      match Entries.find? entries name with
      | some d => value? d
      | none => some default := rfl

namespace Settings

variable {chosen : Finset Field} {s : Settings} {f : Field} {entries : Entries Datum}

/-! ## Reading fields -/

section

variable {α : Type} {d : Datum} {a : α}

/-- A field that always has a value is read as that value or as the default. -/
theorem read_of_shows (value? : Datum → Option α)
    (h : f.Shows chosen s (Entries.find? entries f.name)) (hd : f.datum? s = some d)
    (hread : value? d = some a) (place : Nat) (default : α) :
    (Datum.table entries).read f.name place default value? =
      some (if f ∈ chosen then a else default) := by
  rw [Datum.read_table]
  generalize Entries.find? entries f.name = found at h
  cases h with
  | value hf hd' =>
    cases hd.symm.trans hd'
    rw [if_pos hf]
    exact hread
  | absent hf =>
    rw [hd] at hf
    rw [if_neg (by simpa using hf)]
  | null _ hd' => cases hd.symm.trans hd'

/-- An optional field without a value is read like one that is not there. -/
theorem read_optional_of_shows (value? : Datum → Option α) {o : Option α} {put : α → Datum}
    (h : f.Shows chosen s (Entries.find? entries f.name)) (hd : f.datum? s = o.map put)
    (hread : ∀ a, Datum.optional? value? (put a) = some (some a)) (place : Nat) :
    (Datum.table entries).read f.name place none (Datum.optional? value?) =
      some (if f ∈ chosen then o else none) := by
  rw [Datum.read_table]
  generalize Entries.find? entries f.name = found at h
  cases h with
  | value hf hd' =>
    obtain ⟨a, rfl, rfl⟩ := Option.map_eq_some_iff.mp (hd.symm.trans hd')
    rw [if_pos hf]
    exact hread a
  | absent hf =>
    rw [hd, Option.map_eq_none_iff] at hf
    rcases hf with hf | rfl
    · rw [if_neg hf]
    · rw [ite_self]
  | null hf hd' =>
    rw [hd, Option.map_eq_none_iff] at hd'
    rw [if_pos hf, hd']
    rfl

end

theorem port?_natCast {n : Nat} (h : n < 65536) : Datum.port? (.integer n) = some n := by
  rw [Datum.port?, if_pos (by omega), Int.toNat_natCast]

/-! ## Reading tables -/

/-- The fields of the backend are read from their table. -/
theorem persistence_of_shows (dialect : Dialect) (hport : s.persistence.port < 65536)
    (h : ∀ f : Field, f.table = "persistence" →
      f.Shows chosen s (Entries.find? entries f.name)) :
    PersistenceSettings.ofDatum? dialect (.table entries) =
      some (s.keeping chosen).persistence := by
  have hurl : (Datum.table entries).read "url" 0 none (Datum.optional? Datum.text?) = _ :=
    read_optional_of_shows Datum.text? (h .url rfl) rfl (fun _ => rfl) 0
  have hhost : (Datum.table entries).read "host" 1 "localhost" Datum.text? = _ :=
    read_of_shows Datum.text? (h .host rfl) rfl rfl 1 "localhost"
  have hport' : (Datum.table entries).read "port" 2 27017 Datum.port? = _ :=
    read_of_shows Datum.port? (h .port rfl) rfl (port?_natCast hport) 2 27017
  have husername :
      (Datum.table entries).read "username" 3 none (Datum.optional? Datum.text?) = _ :=
    read_optional_of_shows Datum.text? (h .username rfl) rfl (fun _ => rfl) 3
  have hpassword :
      (Datum.table entries).read "password" 4 none (Datum.optional? Datum.text?) = _ :=
    read_optional_of_shows Datum.text? (h .password rfl) rfl (fun _ => rfl) 4
  have hdatabase :
      (Datum.table entries).read "database" 5 none (Datum.optional? Datum.text?) = _ :=
    read_optional_of_shows Datum.text? (h .database rfl) rfl (fun _ => rfl) 5
  have hssl : (Datum.table entries).read "enable_ssl" 6 none (Datum.optional? Datum.bool?) = _ :=
    read_optional_of_shows Datum.bool? (h .enableSsl rfl) rfl (fun _ => rfl) 6
  have hnormalize : (Datum.table entries).read "normalizeIdFields" 7 false Datum.bool? = _ :=
    read_of_shows Datum.bool? (h .normalizeIdFields rfl) rfl rfl 7 false
  have heval : (Datum.table entries).read "allow_server_eval" 8 false Datum.bool? = _ :=
    read_of_shows Datum.bool? (h .allowServerEval rfl) rfl rfl 8 false
  simp only [PersistenceSettings.ofDatum?, Datum.isRecord, if_true, hurl, hhost, hport',
    husername, hpassword, hdatabase, hssl, hnormalize, heval, Option.bind_eq_bind,
    Option.bind_some]
  rfl

theorem level_of_shows (dialect : Dialect)
    (h : ∀ f : Field, f.table = "logging" → f.Shows chosen s (Entries.find? entries f.name)) :
    LogLevel.ofDatum? dialect (.table entries) = some (s.keeping chosen).level := by
  have hlevel : (Datum.table entries).read "level" 0 LogLevel.warn (Datum.level? dialect) = _ :=
    read_of_shows (Datum.level? dialect) (h .level rfl) rfl (LogLevel.ofName?_name s.level) 0 .warn
  rw [LogLevel.ofDatum?, Datum.isRecord, if_pos rfl, hlevel]
  rfl

/-- A table that is not there is read like an empty one. -/
theorem read_table_of_shows {α : Type} (value? : Datum → Option α) {a default : α}
    {table : String} {tables : Entries Datum}
    (h : TableShows chosen s table (Entries.find? tables table))
    (hempty : value? (.table []) = some default)
    (hread : ∀ entries : Entries Datum,
      (∀ f : Field, f.table = table → f.Shows chosen s (Entries.find? entries f.name)) →
        value? (.table entries) = some a) (place : Nat) :
    (Datum.table tables).read table place default value? = some a := by
  rw [Datum.read_table]
  generalize Entries.find? tables table = found at h
  cases h with
  | present h => exact hread _ h
  | absent h =>
    have ha := hread [] h
    rw [hempty] at ha
    exact ha

/-- What is written is read as the chosen fields over the defaults, in either dialect. -/
theorem ofDatum?_of_writes (dialect : Dialect) (hport : s.persistence.port < 65536) {d : Datum}
    (h : d.Writes chosen s) : Settings.ofDatum? dialect d = some (s.keeping chosen) := by
  obtain ⟨tables, rfl, htables⟩ := h
  have hpersistence : (Datum.table tables).read "persistence" 0 PersistenceSettings.default
      (PersistenceSettings.ofDatum? dialect) = some (s.keeping chosen).persistence :=
    read_table_of_shows (PersistenceSettings.ofDatum? dialect)
      (htables "persistence" (by decide)) rfl
      (fun _ => persistence_of_shows dialect hport) 0
  have hlevel : (Datum.table tables).read "logging" 1 LogLevel.warn
      (LogLevel.ofDatum? dialect) = some (s.keeping chosen).level :=
    read_table_of_shows (LogLevel.ofDatum? dialect) (htables "logging" (by decide)) rfl
      (fun _ => level_of_shows dialect) 1
  simp only [Settings.ofDatum?, Datum.isRecord, if_true, hpersistence, hlevel,
    Option.bind_eq_bind, Option.bind_some]

/-- Settings that are written are read and checked. -/
theorem ofDatum_of_writes (dialect : Dialect) (hport : s.persistence.port < 65536) {d : Datum}
    (h : d.Writes chosen s) : ofDatum dialect (some d) = (s.keeping chosen).validated := by
  rw [ofDatum, Option.bind_some, ofDatum?_of_writes dialect hport h]

/-! ## The two notations -/

theorem ofJson_of_writes (hport : s.persistence.port < 65536) {v : Json}
    (h : v.datum.Writes chosen s) : ofJson v = (s.keeping chosen).validated :=
  ofDatum_of_writes .json hport h

theorem ofToml_of_writes (hport : s.persistence.port < 65536) {text : String}
    {entries : Entries Toml} (htext : Toml.parse? text = some entries)
    (h : (Toml.table entries).datum.Writes chosen s) :
    ofToml text = (s.keeping chosen).validated := by
  rw [ofToml, htext]
  exact ofDatum_of_writes .toml hport h

/-- The tables of a plain document. -/
abbrev documentTables (sections : List Toml.Section) : Entries Toml :=
  sections.map fun e => (e.1, .table e.2)

/-! ## Everything can be written -/

/-- The rows of a table: its chosen fields that have a value. -/
def rows (chosen : Finset Field) (s : Settings) (table : String) : Entries Datum :=
  (Field.all.filter fun f => f.table = table).filterMap fun f =>
    (if f ∈ chosen then f.datum? s else none).map fun d => (f.name, d)

/-- The two tables with their rows. -/
def rowTables (chosen : Finset Field) (s : Settings) : Datum :=
  .table [("persistence", .table (rows chosen s "persistence")),
    ("logging", .table (rows chosen s "logging"))]

theorem Field.mem_all (f : Field) : f ∈ Field.all := by
  cases f <;> decide

theorem nodup_names {table : String} (h : table ∈ ["persistence", "logging"]) :
    ((Field.all.filter fun f => f.table = table).map Field.name).Nodup := by
  revert table
  decide

theorem shows_rows {table : String} (htable : table ∈ ["persistence", "logging"])
    (hf : f.table = table) :
    f.Shows chosen s (Entries.find? (rows chosen s table) f.name) := by
  have hmem : f ∈ Field.all.filter fun f => f.table = table := by
    simp [hf, Field.mem_all f]
  exact .of_eq (Entries.find?_filterMap Field.name _ (nodup_names htable) hmem)

theorem writes_rowTables (chosen : Finset Field) (s : Settings) :
    (rowTables chosen s).Writes chosen s := by
  refine ⟨_, rfl, List.forall_mem_cons.mpr ⟨?_, List.forall_mem_cons.mpr ⟨?_, nofun⟩⟩⟩
  · exact .present fun _ => shows_rows (by decide)
  · exact .present fun _ => shows_rows (by decide)

/-- What can stand under the name of a field. -/
inductive IsLeaf : Datum → Prop where
  | text (s : String) : IsLeaf (.text s)
  | bool (b : Bool) : IsLeaf (.bool b)
  | natural {n : Nat} (hn : n < 65536) : IsLeaf (.integer n)

theorem isLeaf_of_mem_rows (hport : s.persistence.port < 65536) {table : String}
    {e : String × Datum} (he : e ∈ rows chosen s table) : IsLeaf e.2 := by
  obtain ⟨f, -, hf⟩ := List.mem_filterMap.mp he
  obtain ⟨d, hd, rfl⟩ := Option.map_eq_some_iff.mp hf
  have hd : f.datum? s = some d := by
    split at hd
    · exact hd
    · cases hd
  have htext : ∀ o : Option String, o.map Datum.text = some d → IsLeaf d := by
    intro o ho
    obtain ⟨a, -, rfl⟩ := Option.map_eq_some_iff.mp ho
    exact .text a
  cases f with
  | url | username | password | database => exact htext _ hd
  | host | level => cases hd; exact .text _
  | port => cases hd; exact .natural hport
  | normalizeIdFields | allowServerEval => cases hd; exact .bool _
  | enableSsl =>
    obtain ⟨b, -, rfl⟩ := Option.map_eq_some_iff.mp hd
    exact .bool b

/-- A leaf in JSON. -/
def leafJson : Datum → Json
  | .text s => .str s
  | .bool b => .bool b
  | .integer i => .int i
  | _ => .null

/-- A leaf in TOML. -/
def leafToml : Datum → Toml
  | .text s => .string s
  | .bool b => .boolean b
  | .integer i => .integer i
  | _ => .float

theorem fieldData_leafJson {entries : Entries Datum} (h : ∀ e ∈ entries, IsLeaf e.2) :
    Json.fieldData (entries.map fun e => (e.1, leafJson e.2)) = entries := by
  induction entries with
  | nil => rfl
  | cons e rest ih =>
    obtain ⟨he, hrest⟩ := List.forall_mem_cons.mp h
    obtain ⟨name, d⟩ := e
    have hd : (leafJson d).datum = d := by cases he <;> rfl
    rw [List.map_cons, Json.fieldData, ih hrest, hd]

theorem fieldData_leafToml {entries : Entries Datum} (h : ∀ e ∈ entries, IsLeaf e.2) :
    Toml.fieldData (entries.map fun e => (e.1, leafToml e.2)) = entries := by
  induction entries with
  | nil => rfl
  | cons e rest ih =>
    obtain ⟨he, hrest⟩ := List.forall_mem_cons.mp h
    obtain ⟨name, d⟩ := e
    have hd : (leafToml d).datum = d := by cases he <;> rfl
    rw [List.map_cons, Toml.fieldData, ih hrest, hd]

/-- Any choice of fields can be written in JSON. -/
theorem exists_json_writes (chosen : Finset Field) (hport : s.persistence.port < 65536) :
    ∃ v : Json, v.datum.Writes chosen s := by
  let object := fun table => Json.obj ((rows chosen s table).map fun e => (e.1, leafJson e.2))
  have hobject : ∀ table, (object table).datum = .table (rows chosen s table) := by
    intro table
    rw [Json.datum, fieldData_leafJson fun _ => isLeaf_of_mem_rows hport]
  refine ⟨.obj [("persistence", object "persistence"), ("logging", object "logging")], ?_⟩
  rw [Json.datum, Json.fieldData, Json.fieldData, Json.fieldData, hobject, hobject]
  exact writes_rowTables chosen s

theorem isPlain_leafToml {d : Datum} (h : IsLeaf d) : Toml.IsPlain (leafToml d) := by
  cases h with
  | text s => exact .string s
  | bool b => exact .boolean b
  | natural hn => exact .integer (by omega)

theorem nodup_keys_rows {table : String} (h : table ∈ ["persistence", "logging"]) :
    (Entries.keys (rows chosen s table)).Nodup := by
  have hrows := Entries.keys_filterMap_sublist Field.name
    (fun f => if f ∈ chosen then f.datum? s else none)
    (Field.all.filter fun f => f.table = table)
  exact hrows.nodup (nodup_names h)

/-- Any choice of fields can be written in a plain TOML document. -/
theorem exists_toml_writes (chosen : Finset Field) (hport : s.persistence.port < 65536) :
    ∃ (text : String) (sections : List Toml.Section), Toml.IsDocument sections text.toList ∧
      (Toml.table (documentTables sections)).datum.Writes chosen s := by
  let entries := fun table => (rows chosen s table).map fun e => (e.1, leafToml e.2)
  let sections := [("persistence", entries "persistence"), ("logging", entries "logging")]
  have hkeys : ∀ table ∈ ["persistence", "logging"], (Entries.keys (entries table)).Nodup := by
    intro table htable
    have hsame : Entries.keys (entries table) = Entries.keys (rows chosen s table) := by
      simp [entries, Entries.keys]
    rw [hsame]
    exact nodup_keys_rows htable
  have hplain : ∀ table, ∀ e ∈ entries table, Toml.IsPlain e.2 := by
    intro table e he
    obtain ⟨row, hrow, rfl⟩ := List.mem_map.mp he
    exact isPlain_leafToml (isLeaf_of_mem_rows hport hrow)
  have hsections : ∀ e ∈ sections, e.1 ∈ ["persistence", "logging"] ∧ e.2 = entries e.1 := by
    simp [sections]
  obtain ⟨text, htext⟩ := @Toml.exists_isDocument sections (by simp [sections, Entries.keys])
    (fun e he => (hsections e he).2 ▸ hkeys e.1 (hsections e he).1)
    (fun e he => (hsections e he).2 ▸ hplain e.1)
  have htable : ∀ table, Toml.fieldData (entries table) = rows chosen s table := fun table =>
    fieldData_leafToml fun _ => isLeaf_of_mem_rows hport
  refine ⟨text, sections, htext, ?_⟩
  simp only [sections, documentTables, List.map_cons, List.map_nil, Toml.datum, Toml.fieldData,
    htable]
  exact writes_rowTables chosen s

/-! ## Writing and reading -/

theorem keeping_all (s : Settings) : s.keeping Field.all.toFinset = s := by
  have hmem : ∀ f : Field, f ∈ Field.all.toFinset := fun f => List.mem_toFinset.mpr f.mem_all
  simp only [keeping, hmem, if_true]

/-- The object that settings are written as shows all their fields. -/
theorem writes_toJson (s : Settings) : s.toJson.datum.Writes Field.all.toFinset s := by
  have hmem : ∀ f : Field, f ∈ Field.all.toFinset := fun f => List.mem_toFinset.mpr f.mem_all
  obtain ⟨⟨url, host, port, username, password, database, enableSsl, normalize, allow⟩, level⟩ := s
  refine ⟨_, rfl, List.forall_mem_cons.mpr ⟨?_, List.forall_mem_cons.mpr ⟨?_, nofun⟩⟩⟩
  · refine .present fun f hf => ?_
    cases f with
    | url => cases url <;> [exact .null (hmem _) rfl; exact .value (hmem _) rfl]
    | username => cases username <;> [exact .null (hmem _) rfl; exact .value (hmem _) rfl]
    | password => cases password <;> [exact .null (hmem _) rfl; exact .value (hmem _) rfl]
    | database => cases database <;> [exact .null (hmem _) rfl; exact .value (hmem _) rfl]
    | enableSsl => cases enableSsl <;> [exact .null (hmem _) rfl; exact .value (hmem _) rfl]
    | host | port | normalizeIdFields | allowServerEval => exact .value (hmem _) rfl
    | level => exact absurd hf (by decide)
  · refine .present fun f hf => ?_
    obtain rfl := Field.eq_level hf
    exact .value (hmem _) rfl

/-- What is read for a field is its default or the value of some datum. -/
theorem eq_default_or_of_read {α : Type} {value? : Datum → Option α} {record : Datum}
    {a default : α} {name : String} {place : Nat}
    (h : record.read name place default value? = some a) :
    a = default ∨ ∃ d, value? d = some a := by
  unfold Datum.read at h
  split at h
  · exact .inr ⟨_, h⟩
  · cases h
    exact .inl rfl

theorem port?_lt {d : Datum} {n : Nat} (h : Datum.port? d = some n) : n < 65536 := by
  unfold Datum.port? at h
  split at h
  · obtain ⟨hbounds, h⟩ := Option.ite_none_right_eq_some.mp h
    cases h
    omega
  · cases h

theorem port_lt_of_persistence {dialect : Dialect} {d : Datum} {p : PersistenceSettings}
    (h : PersistenceSettings.ofDatum? dialect d = some p) : p.port < 65536 := by
  simp only [PersistenceSettings.ofDatum?, Option.ite_none_right_eq_some, Option.bind_eq_bind,
    Option.bind_eq_some_iff, Option.some.injEq] at h
  obtain ⟨-, _, -, _, -, port, hport, _, -, _, -, _, -, _, -, _, -, _, -, rfl⟩ := h
  obtain rfl | ⟨_, hport⟩ := eq_default_or_of_read hport
  · exact (by decide : 27017 < 65536)
  · exact port?_lt hport

/-- Settings that are read have a port of 16 bits. -/
theorem port_lt_of_ofDatum? {dialect : Dialect} {d : Datum}
    (h : Settings.ofDatum? dialect d = some s) : s.persistence.port < 65536 := by
  simp only [Settings.ofDatum?, Option.ite_none_right_eq_some, Option.bind_eq_bind,
    Option.bind_eq_some_iff, Option.some.injEq] at h
  obtain ⟨-, p, hp, _, -, rfl⟩ := h
  obtain rfl | ⟨_, hp⟩ := eq_default_or_of_read hp
  · exact (by decide : PersistenceSettings.default.port < 65536)
  · exact port_lt_of_persistence hp

/-- Settings that have been read are read back from the object that they are written as. -/
theorem ofJson_toJson {v : Json} (h : ofJson v = .ok s) : ofJson s.toJson = .ok s := by
  have hport : s.persistence.port < 65536 := by
    rw [ofJson, ofDatum, Option.bind_some] at h
    split at h
    · next read hread =>
      obtain ⟨-, rfl⟩ := validated_eq_ok_iff.mp h
      exact port_lt_of_ofDatum? hread
    · cases h
  have hvalid : s.persistence.IsValid := isValid_of_ofDatum h
  rw [ofJson_of_writes hport (writes_toJson s), keeping_all]
  exact validated_eq_ok_iff.mpr ⟨hvalid, rfl⟩

/-! ## Main result -/

/-- Whatever fields are chosen, a JSON object and a TOML document that write them are read alike: as
    the chosen fields over the defaults, which are then checked.  This holds of every plain document
    and of every other text that the reader takes for such tables, and there is a document for every
    choice and all texts.  Settings that have been read are read back from their own JSON form. -/
theorem written_settings_read (s : Settings) (chosen : Finset Field)
    (hport : s.persistence.port < 65536) :
    (∀ v : Json, v.datum.Writes chosen s → ofJson v = (s.keeping chosen).validated) ∧
    (∀ (text : String) (sections : List Toml.Section), Toml.IsDocument sections text.toList →
      (Toml.table (documentTables sections)).datum.Writes chosen s →
        ofToml text = (s.keeping chosen).validated) ∧
    (∀ (text : String) (entries : Entries Toml), Toml.parse? text = some entries →
      (Toml.table entries).datum.Writes chosen s →
        ofToml text = (s.keeping chosen).validated) ∧
    (∃ v : Json, v.datum.Writes chosen s) ∧
    (∃ (text : String) (sections : List Toml.Section), Toml.IsDocument sections text.toList ∧
      (Toml.table (documentTables sections)).datum.Writes chosen s) ∧
    ∀ v : Json, ofJson v = .ok s → ofJson s.toJson = .ok s := by
  refine ⟨fun v => ofJson_of_writes hport, ?_, fun text entries => ofToml_of_writes hport,
    exists_json_writes chosen hport, exists_toml_writes chosen hport, fun v => ofJson_toJson⟩
  intro text sections htext
  exact ofToml_of_writes hport (Toml.parse?_isDocument htext)

/-- Settings with a quote in the name of the host. -/
def quotedHost : Settings :=
  ⟨⟨none, "a\"", 80, none, some "p", none, none, false, false⟩, .debug⟩

/-- An object with the port and the host, and a table in which nothing is written. -/
def quotedHostJson : Json :=
  .obj [("logging", .obj []), ("persistence", .obj [("port", .int 80), ("host", .str "a\"")])]

/-- A document with the host and the port: the quote is escaped, and a low line stands between the
    digits. -/
def quotedHostText : String :=
  "# reach\n[persistence]\nhost = \"a\\u0022\" \nport=8_0"

/-- The tables of the document. -/
def quotedHostSections : List Toml.Section :=
  [("persistence", [("host", .string "a\""), ("port", .integer 80)])]

theorem isDocument_quotedHostText : Toml.IsDocument quotedHostSections quotedHostText.toList := by
  have hhost : Toml.NameText "host" "host".toList :=
    .bare (by decide) (List.all_eq_true.mp (by decide))
  have hport : Toml.NameText "port" "port".toList :=
    .bare (by decide) (List.all_eq_true.mp (by decide))
  have htable : Toml.NameText "persistence" "persistence".toList :=
    .bare (by decide) (List.all_eq_true.mp (by decide))
  have ha : Toml.CharText 'a' ['a'] := .plain (by decide) (by decide) rfl
  have hquote : Toml.CharText '"' "\\u0022".toList := @Toml.CharText.code4 '"' _ rfl (by decide)
  have htext : Toml.ValueText (.string "a\"") "\"a\\u0022\"".toList :=
    .basic (.cons ha (.cons hquote .nil))
  have hnumber : Toml.ValueText (.integer 80) "8_0".toList :=
    @Toml.ValueText.integer 80 _ (by decide) (.bare (.group (by decide) (.single (by decide))))
  have hnone : Toml.IsGap [] := List.forall_mem_nil _
  have hspace : Toml.IsGap [' '] := by simp [Toml.IsGap, Toml.isSpace]
  -- from the last line to the first
  have hlast : Toml.Spells [.assignment "port" (.integer 80)] "port=8_0".toList :=
    @Toml.Spells.line _ _ [] _ [] [] hnone
      (@Toml.LineText.assignment _ _ _ _ [] [] hport hnumber hnone hnone) (.bare .stop) .nil
  have hrows : Toml.Spells [.assignment "host" (.string "a\""), .assignment "port" (.integer 80)]
      "host = \"a\\u0022\" \nport=8_0".toList :=
    @Toml.Spells.line _ _ [] _ " \nport=8_0".toList _ hnone
      (@Toml.LineText.assignment _ _ _ _ [' '] [' '] hhost htext hspace hspace)
      (.space rfl (.bare (.feed _))) hlast
  have hlines : Toml.Spells (quotedHostSections.flatMap Toml.Section.lines)
      "[persistence]\nhost = \"a\\u0022\" \nport=8_0".toList :=
    @Toml.Spells.line _ _ [] _ "\nhost = \"a\\u0022\" \nport=8_0".toList _ hnone
      (@Toml.LineText.header _ _ [] [] htable hnone hnone) (.bare (.feed _)) hrows
  have hbody : Toml.Spells (quotedHostSections.flatMap Toml.Section.lines) quotedHostText.toList :=
    .blank (@Toml.LineEnd.comment _ _ " reach".toList (List.all_eq_true.mp (by decide)) (.feed _))
      hlines
  exact ⟨⟨_, hbody, .inl rfl⟩, by decide, by decide⟩

/-- Of the settings only the host and the port are written, in another order in either text. -/
theorem written_settings_read_quoted_host :
    quotedHost.persistence.port < 65536 ∧
    quotedHostJson.datum.Writes {.host, .port} quotedHost ∧
    Toml.IsDocument quotedHostSections quotedHostText.toList ∧
    (Toml.table (documentTables quotedHostSections)).datum.Writes {.host, .port} quotedHost ∧
    ofJson quotedHostJson =
      .ok ⟨⟨none, "a\"", 80, none, none, none, none, false, false⟩, .warn⟩ ∧
    ofToml quotedHostText =
      .ok ⟨⟨none, "a\"", 80, none, none, none, none, false, false⟩, .warn⟩ := by
  have hjson : quotedHostJson.datum.Writes {.host, .port} quotedHost := by
    refine ⟨_, rfl, List.forall_mem_cons.mpr ⟨?_, List.forall_mem_cons.mpr ⟨?_, nofun⟩⟩⟩
    · exact .present fun f _ => .of_eq (by cases f <;> rfl)
    · exact .present fun f hf => .of_eq (by rw [Field.eq_level hf]; rfl)
  have htoml : (Toml.table (documentTables quotedHostSections)).datum.Writes {.host, .port}
      quotedHost := by
    refine ⟨_, rfl, List.forall_mem_cons.mpr ⟨?_, List.forall_mem_cons.mpr ⟨?_, nofun⟩⟩⟩
    · exact .present fun f _ => .of_eq (by cases f <;> rfl)
    · exact .absent fun f hf => .of_eq (by rw [Field.eq_level hf]; rfl)
  have hread := written_settings_read quotedHost {.host, .port} (by decide)
  refine ⟨by decide, hjson, isDocument_quotedHostText, htoml, ?_, ?_⟩
  · rw [hread.1 _ hjson]
    rfl
  · rw [hread.2.1 _ _ isDocument_quotedHostText htoml]
    rfl

end Settings

end ShellQuery
