import ShellQuery.Json.Basic
import ShellQuery.Toml.Basic

/-!
# Data that settings are read from

Settings come as JSON or as TOML.  `Datum` is what both have in common, as far as settings can tell;
a *dialect* holds the two points in which reading differs.
-/

namespace ShellQuery

/-- A value of either notation. -/
inductive Datum where
  | null
  | bool (value : Bool)
  | integer (value : Int)
  | real
  | text (value : String)
  | list (items : List Datum)
  | table (entries : List (String × Datum))

mutual

/-- A JSON value as a datum. -/
def Json.datum : Json → Datum
  | null => .null
  | bool b => .bool b
  | int i => .integer i
  | float _ => .real
  | str s => .text s
  | arr items => .list (itemData items)
  | obj entries => .table (fieldData entries)

/-- The items of a list as data. -/
def Json.itemData : List Json → List Datum
  | [] => []
  | item :: items => item.datum :: itemData items

/-- The properties of an object as data. -/
def Json.fieldData : List (String × Json) → List (String × Datum)
  | [] => []
  | (name, item) :: fields => (name, item.datum) :: fieldData fields

end

mutual

/-- A TOML value as a datum; a date is a table with its text as only entry. -/
def Toml.datum : Toml → Datum
  | string s => .text s
  | integer i => .integer i
  | float => .real
  | boolean b => .bool b
  | dateTime => .table [("date", .text "")]
  | array items => .list (itemData items)
  | table entries => .table (fieldData entries)

/-- The items of a list as data. -/
def Toml.itemData : List Toml → List Datum
  | [] => []
  | item :: items => item.datum :: itemData items

/-- The entries of a table as data. -/
def Toml.fieldData : List (String × Toml) → List (String × Datum)
  | [] => []
  | (name, item) :: fields => (name, item.datum) :: fieldData fields

end

/-- How a notation writes the word of a choice as a table, and whether a list may hold more values
    than a record has fields. -/
structure Dialect where
  isNothing : Datum → Bool
  allowsMore : Bool

/-- In JSON the word of a choice may be the name of a `null`. -/
def Dialect.json : Dialect where
  isNothing
    | .null => true
    | _ => false
  allowsMore := false

/-- In TOML the word of a choice may be the name of an empty list or table. -/
def Dialect.toml : Dialect where
  isNothing
    | .list items => items.isEmpty
    | .table entries => entries.isEmpty
    | _ => false
  allowsMore := true

end ShellQuery
