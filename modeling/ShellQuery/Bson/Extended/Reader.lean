import ShellQuery.Json.Basic
import ShellQuery.Bson.Basic
import ShellQuery.Bson.Base64
import ShellQuery.Bson.Calendar
import ShellQuery.Bson.Decimal128

/-!
# Reading Extended JSON

Extended JSON writes the stored types that JSON lacks as *wrappers*: objects with one of a fixed
set of names.  An object with such a name must be that wrapper exactly; all other objects are
documents.  `Bson.ofJson?` is defined by structural recursion: the members of an object are read
first, and a wrapper then looks at their JSON instead.
-/

namespace ShellQuery.Bson

/-! ## Parts of a wrapper -/

/-- The values of a record with the given names, all of which are required.  It is written as an
    object with no other names, or as a list of the values in order. -/
def record? (names : List String) : Json → Option (List Json)
  | .obj entries =>
    if entries.all fun e => names.contains e.1 then names.mapM (Entries.find? entries)
    else none
  | .arr items => if items.length = names.length then some items else none
  | _ => none

/-- The value of an object that has the given name and no other. -/
def single? (name : String) (entries : Entries Json) : Option Json :=
  match entries with
  | [(key, value)] => if key = name then some value else none
  | _ => none

/-- The string of an object that has the given name and no other. -/
def singleText? (name : String) (entries : Entries Json) : Option String :=
  (single? name entries).bind Json.text?

/-- An unsigned integer of 32 bits. -/
def unsigned32? : Json → Option Nat :=
  Json.natural? 0 4294967296

/-- The bytes of a run of hexadecimal digits. -/
def hexBytes? : List Char → Option (List Nat)
  | [] => some []
  | a :: b :: rest =>
    match Text.natOfHex? [a, b], hexBytes? rest with
    | some byte, some more => some (byte :: more)
    | _, _ => none
  | [_] => none

/-- The bytes of a UUID whose groups are joined by hyphens. -/
def hyphenated? (s : List Char) : Option (List Nat) :=
  match s[8]?, s[13]?, s[18]?, s[23]? with
  | some '-', some '-', some '-', some '-' =>
    if s.length = 36 then
      hexBytes? (s.take 8 ++ (s.drop 9).take 4 ++ (s.drop 14).take 4 ++ (s.drop 19).take 4 ++
        s.drop 24)
    else none
  | _, _, _, _ => none

/-- The bytes of a UUID: plain, with hyphens, and the latter in braces or behind `urn:uuid:`. -/
def uuid? (s : List Char) : Option (List Nat) :=
  if s.length = 32 then hexBytes? s
  else
    match s with
    | '{' :: rest => if rest.getLast? = some '}' then hyphenated? rest.dropLast else none
    | 'u' :: 'r' :: 'n' :: ':' :: 'u' :: 'u' :: 'i' :: 'd' :: ':' :: rest => hyphenated? rest
    | _ => hyphenated? s

/-- Sort characters by their code points. -/
def sortChars (s : List Char) : List Char :=
  s.mergeSort fun a b => a.toNat ≤ b.toNat

/-! ## The wrappers -/

/-- An object id. -/
def readObjectId (entries : Entries Json) : Option Bson :=
  ((singleText? "$oid" entries).bind ObjectId.read?).map objectId

/-- A symbol. -/
def readSymbol (entries : Entries Json) : Option Bson :=
  (singleText? "$symbol" entries).map symbol

/-- A regular expression; its options are kept sorted. -/
def readRegex (entries : Entries Json) : Option Bson :=
  match (single? "$regularExpression" entries).bind (record? ["pattern", "options"]) with
  | some [.str pattern, .str options] =>
    some (regex pattern (String.ofList (sortChars options.toList)))
  | _ => none

/-- An integer of 32 bits. -/
def readInt32 (entries : Entries Json) : Option Bson :=
  ((singleText? "$numberInt" entries).bind fun s => Text.readSigned32 s.toList).map int32

/-- The integer of 64 bits in its wrapper. -/
def int64Text? (entries : Entries Json) : Option Int :=
  (singleText? "$numberLong" entries).bind fun s => Text.readSigned64 s.toList

/-- An integer of 64 bits. -/
def readInt64 (entries : Entries Json) : Option Bson :=
  (int64Text? entries).map int64

/-- A floating-point value. -/
def readDouble (entries : Entries Json) : Option Bson :=
  ((singleText? "$numberDouble" entries).bind fun s => FloatValue.read? s.toList).map double

/-- A decimal number. -/
def readDecimal (entries : Entries Json) : Option Bson :=
  ((singleText? "$numberDecimal" entries).bind fun s => Decimal128.read? s.toList).map decimal

/-- Bytes of a given kind. -/
def readBinary (entries : Entries Json) : Option Bson :=
  match (single? "$binary" entries).bind (record? ["base64", "subType"]) with
  | some [.str text, .str kind] =>
    match Base64.decode text.toList, hexBytes? kind.toList with
    | some bytes, some [subtype] => some (binary subtype bytes)
    | _, _ => none
  | _ => none

/-- A UUID, which is stored as bytes of kind four. -/
def readUuid (entries : Entries Json) : Option Bson :=
  ((singleText? "$uuid" entries).bind fun s => uuid? s.toList).map (binary 4)

/-- A timestamp. -/
def readTimestamp (entries : Entries Json) : Option Bson :=
  match (single? "$timestamp" entries).bind (record? ["t", "i"]) with
  | some [t, i] =>
    match unsigned32? t, unsigned32? i with
    | some t, some i => some (timestamp t i)
    | _, _ => none
  | _ => none

/-- The milliseconds of a point in time: a wrapped integer, a text or a plain integer. -/
def millis? : Json → Option Int
  | .obj entries => int64Text? entries
  | .arr [.str s] => Text.readSigned64 s.toList
  | .str s => Calendar.readInstant s.toList
  | .int i => if Text.fitsSigned64 i then some i else none
  | _ => none

/-- A point in time. -/
def readDateTime (entries : Entries Json) : Option Bson :=
  ((single? "$date" entries).bind millis?).map dateTime

/-- A wrapper whose only value is the number one. -/
def readOne (name : String) (result : Bson) (entries : Entries Json) : Option Bson :=
  match single? name entries with
  | some (.int 1) => some result
  | _ => none

/-- The id inside a pointer, as a wrapper or as a list of one text. -/
def pointerId? : Json → Option ObjectId
  | .obj entries => (singleText? "$oid" entries).bind ObjectId.read?
  | .arr [.str s] => ObjectId.read? s
  | _ => none

/-- A pointer to a document of a collection. -/
def readPointer (entries : Entries Json) : Option Bson :=
  match (single? "$dbPointer" entries).bind (record? ["$ref", "$id"]) with
  | some [.str collection, id] => (pointerId? id).map (dbPointer collection)
  | _ => none

/-- The value that is not defined. -/
def readUndefined (entries : Entries Json) : Option Bson :=
  match single? "$undefined" entries with
  | some (.bool true) => some undefined
  | _ => none

/-- Program text, with a scope or without; `scope` is what the member `$scope` reads as. -/
def readCode (entries : Entries Json) (scope : Option Bson) : Option Bson :=
  if entries.all fun e => e.1 = "$code" || e.1 = "$scope" then
    match Entries.find? entries "$code", Entries.find? entries "$scope" with
    | some (.str text), none => some (code text)
    | some (.str text), some .null => some (code text)
    | some (.str text), some (.obj _) =>
      match scope with
      | some (.document fields) => some (codeWithScope text fields)
      | _ => none
    | _, _ => none
  else none

/-- The wrappers that come before program text in the order in which their names are looked for. -/
def firstWrappers : List (String × (Entries Json → Option Bson)) :=
  [("$oid", readObjectId), ("$symbol", readSymbol), ("$regularExpression", readRegex),
   ("$numberInt", readInt32), ("$numberLong", readInt64), ("$numberDouble", readDouble),
   ("$numberDecimal", readDecimal), ("$binary", readBinary), ("$uuid", readUuid)]

/-- The wrappers that come after program text. -/
def lastWrappers : List (String × (Entries Json → Option Bson)) :=
  [("$timestamp", readTimestamp), ("$date", readDateTime), ("$minKey", readOne "$minKey" minKey),
   ("$maxKey", readOne "$maxKey" maxKey), ("$dbPointer", readPointer),
   ("$undefined", readUndefined)]

/-- The reader of the first wrapper in the list whose name the object has. -/
def wrapper? (wrappers : List (String × (Entries Json → Option Bson))) (entries : Entries Json) :
    Option (Entries Json → Option Bson) :=
  (wrappers.find? fun w => Entries.has entries w.1).map Prod.snd

/-! ## Values -/

mutual

/-- The stored value that an Extended JSON value writes. -/
def ofJson? : Json → Option Bson
  | .null => some null
  | .bool b => some (boolean b)
  | .int i =>
    if Text.fitsSigned64 i then some (ofInt i)
    else
      match Double.nearest (i < 0) ⟨i.natAbs, 1⟩ with
      | some d => some (double (.finite d))
      | none => none
  | .float d => some (double (.finite d))
  | .str s => some (string s)
  | .arr items => (ofItems? items).map array
  | .obj entries =>
    match wrapper? firstWrappers entries with
    | some read => read entries
    | none =>
      if Entries.has entries "$code" then readCode entries (ofScope? entries)
      else
        match wrapper? lastWrappers entries with
        | some read => read entries
        | none => (ofFields? entries).map document

/-- The stored values of a list, none when one of them cannot be read. -/
def ofItems? : List Json → Option (List Bson)
  | [] => some []
  | item :: items =>
    match ofJson? item with
    | some value => (ofItems? items).map (value :: ·)
    | none => none

/-- The stored values of named members, none when one of them cannot be read. -/
def ofFields? : List (String × Json) → Option Document
  | [] => some []
  | (name, item) :: fields =>
    match ofJson? item with
    | some value => (ofFields? fields).map ((name, value) :: ·)
    | none => none

/-- The document that the members of `$scope` make up. -/
def ofScope? : List (String × Json) → Option Bson
  | [] => none
  | (name, item) :: fields => if name = "$scope" then ofScopeValue? item else ofScope? fields

/-- The members of a scope, which is no wrapper even with the name of one. -/
def ofScopeValue? : Json → Option Bson
  | .obj entries => (ofFields? entries).map document
  | _ => none

end

end ShellQuery.Bson
