import ShellQuery.Error
import ShellQuery.Result.Normalize

/-!
# Summaries of writes

A write reports how many documents it touched and the keys of those that it created.  The same
summary can be drawn from any result: from one that holds it, or from the counters of a raw report.

Counts have 64 bits.  Counters whose sum has more break off the task that adds them, which then
answers with an error.
-/

namespace ShellQuery

/-- What a write did.  The count has 64 bits. -/
structure WriteSummary where
  count : UInt64
  keys : List String
deriving DecidableEq, Repr

namespace WriteSummary

/-- The summary of a write that did nothing. -/
def empty : WriteSummary := ⟨0, []⟩

/-- The summary as a result. -/
def toJson (s : WriteSummary) : Json :=
  .obj [("manipulationCount", .int s.count.toNat), ("affectedKeys", .arr (s.keys.map .str))]

/-! ## Results that hold a summary -/

/-- A natural number of 64 bits. -/
def count? (v : Json) : Option UInt64 :=
  (v.natural? 0 Text.bound64).map Nat.toUInt64

/-- A list of texts. -/
def texts? : Json → Option (List String)
  | .arr items => items.mapM Json.text?
  | _ => none

/-- The value of an entry, a default when there is none, and nothing when it has another shape. -/
def readEntry {α : Type} (entries : Entries Json) (name : String) (default : α)
    (read : Json → Option α) : Option α :=
  match Entries.find? entries name with
  | some v => read v
  | none => some default

/-- The summary that an object holds. -/
def ofEntries? (entries : Entries Json) : Option WriteSummary := do
  let count ← readEntry entries "manipulationCount" 0 count?
  let keys ← readEntry entries "affectedKeys" [] texts?
  some ⟨count, keys⟩

/-! ## Raw reports -/

/-- The counters of a raw report. -/
def counters : List String :=
  ["nInserted", "nUpserted", "nModified", "nRemoved"]

/-- A number as a count.  One of more than 64 bits breaks off the addition that gives it. -/
def fit (n : Nat) : Except Fault UInt64 :=
  if n < Text.bound64 then .ok n.toUInt64 else .error (.abort .addOverflow)

/-- Add two counts. -/
def plus (m n : UInt64) : Except Fault UInt64 :=
  fit (m.toNat + n.toNat)

/-- The sum of the counters that are natural numbers, added one after the other. -/
def countersSum (entries : Entries Json) : Except Fault UInt64 :=
  (counters.filterMap fun name => (Entries.find? entries name).bind count?).foldlM plus 0

/-- The key under `id`: a text as it is, any other value as compact JSON. -/
def reportedKeys (entries : Entries Json) : List String :=
  match Entries.find? entries "id" with
  | some (.str id) => [id]
  | some .null => []
  | some other => [other.compact]
  | none => []

/-! ## Any result -/

/-- The summary of an object. -/
def ofObject (entries : Entries Json) : Except Fault WriteSummary :=
  if Entries.has entries "manipulationCount" || Entries.has entries "affectedKeys" then
    match ofEntries? entries with
    | some s => .ok s
    | none => .error (.error (.conversion (.invalid "the result holds no summary of a write")))
  else (countersSum entries).map fun count => ⟨count, reportedKeys entries⟩

/-- Draw the summary of a result.  There is none for `null`; a result that is no object wrote
    nothing.  With `normalizeIds` the object ids of the result are replaced first. -/
def draw (normalizeIds : Bool) (result : Json) : Except Fault (Option WriteSummary) :=
  if result.isNull then .ok none
  else
    match if normalizeIds then result.normalize .idOnly else result with
    | .obj entries => (ofObject entries).map some
    | _ => .ok (some empty)

/-- The summary of a result, as a task answers that draws it. -/
def ofResult (normalizeIds : Bool) (result : Json) : Except Error (Option WriteSummary) :=
  (draw normalizeIds result).mapError Fault.reported

end WriteSummary

end ShellQuery
