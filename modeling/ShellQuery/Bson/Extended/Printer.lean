import ShellQuery.Json.Printer
import ShellQuery.Bson.Basic
import ShellQuery.Bson.Base64
import ShellQuery.Bson.Calendar
import ShellQuery.Bson.Decimal128

/-!
# Writing Extended JSON

The *relaxed* form writes numbers as plain JSON numbers and points in time between 1970 and 9999 as
text.  The *canonical* form keeps the width of each number in a wrapper and writes points in time
as milliseconds.  All other types have the same wrapper in both.

A failure report shows the key that clashed.  Its values are written like the relaxed form with
three differences: points in time are always in milliseconds, plain bytes and decimal numbers are
lists of bytes, and a floating-point value that JSON has no number for is `null`.
-/

namespace ShellQuery.Bson

/-! ## Wrappers -/

/-- An object with a single member. -/
def wrap (name : String) (value : Json) : Json :=
  .obj [(name, value)]

/-- A wrapper around a text. -/
def wrapText (name : String) (text : List Char) : Json :=
  wrap name (.str (String.ofList text))

/-- The wrapper of an object id. -/
def objectIdJson (id : ObjectId) : Json :=
  wrap "$oid" (.str id.text)

/-- The wrapper of bytes. -/
def binaryJson (subtype : Nat) (bytes : List Nat) : Json :=
  wrap "$binary" (.obj [("base64", .str (String.ofList (Base64.encode bytes))),
    ("subType", .str (String.ofList (Text.hexByte subtype)))])

/-- The wrapper of a regular expression. -/
def regexJson (pattern options : String) : Json :=
  wrap "$regularExpression" (.obj [("pattern", .str pattern), ("options", .str options)])

/-- The wrapper of a timestamp. -/
def timestampJson (seconds increment : Nat) : Json :=
  wrap "$timestamp" (.obj [("t", .int seconds), ("i", .int increment)])

/-- The wrapper of a pointer. -/
def pointerJson (collection : String) (id : ObjectId) : Json :=
  wrap "$dbPointer" (.obj [("$ref", .str collection), ("$id", objectIdJson id)])

/-- The milliseconds of a point in time in their wrapper. -/
def millisJson (millis : Int) : Json :=
  wrap "$date" (wrapText "$numberLong" (Text.intDigits millis))

/-- A floating-point value that JSON has no number for, in its wrapper; a plain number else. -/
def plainFloatJson : FloatValue → Json
  | .finite d => .float d
  | .infinite negative => wrap "$numberDouble" (.str (if negative then "-Infinity" else "Infinity"))
  | .nan negative => wrap "$numberDouble" (.str (if negative then "-NaN" else "NaN"))

/-- A floating-point value in its wrapper.  A number below the least normal one stays plain. -/
def wrappedFloatJson : FloatValue → Json
  | .finite d => if d.isSubnormal then .float d else wrapText "$numberDouble" d.positionalText
  | value => plainFloatJson value

/-- A point in time as text where the text form exists, in milliseconds elsewhere. -/
def instantJson (millis : Int) : Json :=
  if 0 ≤ millis ∧ millis ≤ Calendar.lastMillis then
    wrapText "$date" (Calendar.instantText millis.toNat)
  else millisJson millis

/-! ## The two forms -/

mutual

/-- The relaxed form of a value. -/
def relaxed : Bson → Json
  | double x => plainFloatJson x
  | string s => .str s
  | array items => .arr (relaxedItems items)
  | document fields => .obj (relaxedFields fields)
  | boolean b => .bool b
  | null => .null
  | regex pattern options => regexJson pattern options
  | code text => wrap "$code" (.str text)
  | codeWithScope text scope => .obj [("$code", .str text), ("$scope", .obj (relaxedFields scope))]
  | int32 i => .int i
  | int64 i => .int i
  | timestamp t i => timestampJson t i
  | binary subtype bytes => binaryJson subtype bytes
  | objectId id => objectIdJson id
  | dateTime millis => instantJson millis
  | symbol s => wrap "$symbol" (.str s)
  | decimal d => wrapText "$numberDecimal" d.text
  | undefined => wrap "$undefined" (.bool true)
  | maxKey => wrap "$maxKey" (.int 1)
  | minKey => wrap "$minKey" (.int 1)
  | dbPointer collection id => pointerJson collection id

/-- The relaxed forms of a list. -/
def relaxedItems : List Bson → List Json
  | [] => []
  | item :: items => relaxed item :: relaxedItems items

/-- The relaxed forms of named values. -/
def relaxedFields : List (String × Bson) → List (String × Json)
  | [] => []
  | (name, item) :: fields => (name, relaxed item) :: relaxedFields fields

end

mutual

/-- The canonical form of a value. -/
def canonical : Bson → Json
  | double x => wrappedFloatJson x
  | array items => .arr (canonicalItems items)
  | document fields => .obj (canonicalFields fields)
  | codeWithScope text scope =>
    .obj [("$code", .str text), ("$scope", .obj (canonicalFields scope))]
  | int32 i => wrapText "$numberInt" (Text.intDigits i)
  | int64 i => wrapText "$numberLong" (Text.intDigits i)
  | dateTime millis => millisJson millis
  | string s => .str s
  | boolean b => .bool b
  | null => .null
  | regex pattern options => regexJson pattern options
  | code text => wrap "$code" (.str text)
  | timestamp t i => timestampJson t i
  | binary subtype bytes => binaryJson subtype bytes
  | objectId id => objectIdJson id
  | symbol s => wrap "$symbol" (.str s)
  | decimal d => wrapText "$numberDecimal" d.text
  | undefined => wrap "$undefined" (.bool true)
  | maxKey => wrap "$maxKey" (.int 1)
  | minKey => wrap "$minKey" (.int 1)
  | dbPointer collection id => pointerJson collection id

/-- The canonical forms of a list. -/
def canonicalItems : List Bson → List Json
  | [] => []
  | item :: items => canonical item :: canonicalItems items

/-- The canonical forms of named values. -/
def canonicalFields : List (String × Bson) → List (String × Json)
  | [] => []
  | (name, item) :: fields => (name, canonical item) :: canonicalFields fields

end

/-! ## Laws -/

theorem relaxedItems_eq_map (items : List Bson) : relaxedItems items = items.map relaxed := by
  induction items with
  | nil => rfl
  | cons b rest ih => rw [relaxedItems, ih, List.map_cons]

theorem relaxedFields_eq_map (fields : Document) :
    relaxedFields fields = fields.map fun e => (e.1, e.2.relaxed) := by
  induction fields with
  | nil => rfl
  | cons e rest ih => rw [relaxedFields, ih, List.map_cons]

/-- The relaxed form of a list is the list of the relaxed forms. -/
theorem relaxed_array (items : List Bson) : (array items).relaxed = .arr (items.map relaxed) := by
  rw [relaxed, relaxedItems_eq_map]

/-- A document keeps its names in relaxed form. -/
theorem keys_relaxedFields (fields : Document) :
    Entries.keys (relaxedFields fields) = Entries.keys fields := by
  rw [relaxedFields_eq_map, Entries.keys, List.map_map]
  rfl

/-- Looking up a member commutes with writing it. -/
theorem find?_relaxedFields (fields : Document) (name : String) :
    Entries.find? (relaxedFields fields) name = (Entries.find? fields name).map relaxed := by
  induction fields with
  | nil => rfl
  | cons e rest ih =>
    rw [relaxedFields, Entries.find?, Entries.find?, ih]
    split
    · rfl
    · rfl

/-! ## The form of a failure report -/

/-- A list of bytes as numbers. -/
def byteList (bytes : List Nat) : Json :=
  .arr (bytes.map fun (b : Nat) => .int b)

mutual

/-- The form of a value in a failure report. -/
def reported : Bson → Json
  | double (.finite d) => .float d
  | double _ => .null
  | array items => .arr (reportedItems items)
  | document fields => .obj (reportedFields fields)
  | codeWithScope text scope =>
    .obj [("$code", .str text), ("$scope", .obj (reportedFields scope))]
  | binary subtype bytes => if subtype = 0 then byteList bytes else binaryJson subtype bytes
  | dateTime millis => millisJson millis
  | decimal d => wrap "$numberDecimalBytes" (byteList d.bytes)
  | value => value.relaxed

/-- The forms of a list. -/
def reportedItems : List Bson → List Json
  | [] => []
  | item :: items => reported item :: reportedItems items

/-- The forms of named values. -/
def reportedFields : List (String × Bson) → List (String × Json)
  | [] => []
  | (name, item) :: fields => (name, reported item) :: reportedFields fields

end

end ShellQuery.Bson
