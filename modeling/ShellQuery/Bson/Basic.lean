import ShellQuery.Entries
import ShellQuery.Number.FloatValue

/-!
# Stored values

`Bson` is the value type of the document store: what a document holds after its Extended JSON form
has been read.  A document is an ordered list of named values.
-/

namespace ShellQuery

/-- The id of a document: one that was written down, as 24 lower-case hexadecimal digits, or the
    n-th one that this client has made up. -/
inductive ObjectId where
  | hex (digits : String)
  | fresh (n : Nat)
deriving DecidableEq, Repr

/-- A decimal floating-point number of 128 bits: `coefficient · 10 ^ exponent`, or a special
    value. -/
inductive Decimal128 where
  | finite (negative : Bool) (coefficient : Nat) (exponent : Int)
  | infinite (negative : Bool)
  | nan (negative signalling : Bool)
deriving DecidableEq, Repr

/-- A stored value. -/
inductive Bson where
  | double (value : FloatValue)
  | string (value : String)
  | array (items : List Bson)
  | document (fields : List (String × Bson))
  | boolean (value : Bool)
  | null
  | regex (pattern options : String)
  | code (text : String)
  | codeWithScope (text : String) (scope : List (String × Bson))
  | int32 (value : Int)
  | int64 (value : Int)
  | timestamp (seconds increment : Nat)
  | binary (subtype : Nat) (bytes : List Nat)
  | objectId (id : ObjectId)
  | dateTime (millis : Int)
  | symbol (value : String)
  | decimal (value : Decimal128)
  | undefined
  | maxKey
  | minKey
  | dbPointer (collection : String) (id : ObjectId)
deriving Inhabited

/-- A stored document. -/
abbrev Document := Entries Bson

/-! ## Object ids -/

/-- The hexadecimal text of an id; a made-up id is named by its number. -/
def ObjectId.text : ObjectId → String
  | hex digits => digits
  | fresh n => "<generated:" ++ String.ofList (Text.natDigits n) ++ ">"

/-- The id that 24 hexadecimal digits of either case write. -/
def ObjectId.read? (s : String) : Option ObjectId :=
  let digits := s.toList
  if digits.length = 24 ∧ digits.all Text.isHexDigit then
    some (.hex (String.ofList (digits.map Char.toLower)))
  else none

namespace Bson

/-! ## Names of the types -/

/-- The name of a value's type, as messages show it. -/
def typeName : Bson → String
  | double _ => "Double"
  | string _ => "String"
  | array _ => "Array"
  | document _ => "EmbeddedDocument"
  | boolean _ => "Boolean"
  | null => "Null"
  | regex _ _ => "RegularExpression"
  | code _ => "JavaScriptCode"
  | codeWithScope _ _ => "JavaScriptCodeWithScope"
  | int32 _ => "Int32"
  | int64 _ => "Int64"
  | timestamp _ _ => "Timestamp"
  | binary _ _ => "Binary"
  | objectId _ => "ObjectId"
  | dateTime _ => "DateTime"
  | symbol _ => "Symbol"
  | decimal _ => "Decimal128"
  | undefined => "Undefined"
  | maxKey => "MaxKey"
  | minKey => "MinKey"
  | dbPointer _ _ => "DbPointer"

/-- An integer takes 32 bits when it fits them and 64 otherwise. -/
def ofInt (i : Int) : Bson :=
  if Text.fitsSigned32 i then int32 i else int64 i

end Bson

end ShellQuery
