import ShellQuery.Json.Basic
import ShellQuery.Text.Blank
import ShellQuery.Text.Integer

/-!
# Plain results

A result of the store writes object ids as wrappers, objects whose one property is `$oid`.
Normalizing replaces wrappers by what they hold.  An `_id` that was a wrapped object id becomes the
property `id`, which takes the place of an `id` that is there already.

The narrow mode replaces object ids with a text.  The broad mode replaces all object ids, and
64-bit integers in their wrapper.
-/

namespace ShellQuery

/-- Which wrappers are replaced. -/
inductive NormalizeMode where
  | idOnly
  | allSpecialFields
deriving DecidableEq, Repr

namespace Json

/-! ## Wrappers -/

/-- The integer of 64 bits that a number or a text holds. -/
def long? : Json → Option Int
  | str s => Text.readSigned64 (Text.trim s.toList)
  | int i => if Text.fitsSigned64 i then some i else none
  | _ => none

/-- What a wrapped object id holds, when the mode replaces it. -/
def unwrapId? : NormalizeMode → Json → Option Json
  | .idOnly, str s => some (str s)
  | .idOnly, _ => none
  | .allSpecialFields, inner => some inner

/-- What stands in the place of a property list that is a wrapper. -/
def unwrapEntries? (mode : NormalizeMode) : Entries Json → Option Json
  | [(tag, inner)] =>
    if tag = "$oid" then unwrapId? mode inner
    else if tag = "$numberLong" ∧ mode = .allSpecialFields then inner.long?.map int
    else none
  | _ => none

/-- What stands in the place of a value that is a wrapped object id. -/
def wrappedId? (mode : NormalizeMode) : Json → Option Json
  | obj [(tag, inner)] => if tag = "$oid" then unwrapId? mode inner else none
  | _ => none

/-- The object id under `_id`, when it is wrapped. -/
def primaryId? (mode : NormalizeMode) (entries : Entries Json) : Option Json :=
  (Entries.find? entries "_id").bind (wrappedId? mode)

/-- Move the object id from `_id` to `id`. -/
def renameId (id : Option Json) (entries : Entries Json) : Entries Json :=
  match id with
  | some value => Entries.put (Entries.erase entries "_id") "id" value
  | none => entries

/-! ## Normalizing -/

mutual

/-- Replace the wrappers of a value.  What a wrapper holds is taken as it stands. -/
def normalize (mode : NormalizeMode) : Json → Json
  | arr items => arr (normalizeItems mode items)
  | obj entries =>
    match unwrapEntries? mode entries with
    | some value => value
    | none => obj (renameId (primaryId? mode entries) (normalizeFields mode entries))
  | null => null
  | bool b => bool b
  | int i => int i
  | float d => float d
  | str s => str s

/-- Normalize the items of a list. -/
def normalizeItems (mode : NormalizeMode) : List Json → List Json
  | [] => []
  | item :: items => normalize mode item :: normalizeItems mode items

/-- Normalize the values of properties and keep their names. -/
def normalizeFields (mode : NormalizeMode) : List (String × Json) → List (String × Json)
  | [] => []
  | (name, item) :: fields => (name, normalize mode item) :: normalizeFields mode fields

end

end Json

end ShellQuery
