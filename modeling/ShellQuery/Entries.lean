/-!
# Ordered entries

Objects and documents hold named values in the order in which the names first appeared.  Writing a
name that is present replaces its value in place; a new name goes to the end.
-/

namespace ShellQuery

/-- Named values in order. -/
abbrev Entries (α : Type) := List (String × α)

namespace Entries

variable {α : Type}

/-! ## Operations -/

/-- The value of the first entry with the name. -/
def find? : Entries α → String → Option α
  | [], _ => none
  | (k, v) :: rest, key => if k = key then some v else find? rest key

/-- Whether an entry has the name. -/
def has (entries : Entries α) (key : String) : Bool :=
  (find? entries key).isSome

/-- Write an entry: in place when the name is present, at the end otherwise. -/
def put : Entries α → String → α → Entries α
  | [], key, value => [(key, value)]
  | (k, v) :: rest, key, value =>
    if k = key then (key, value) :: rest else (k, v) :: put rest key value

/-- Drop the first entry with the name and close the gap. -/
def erase : Entries α → String → Entries α
  | [], _ => []
  | (k, v) :: rest, key => if k = key then rest else (k, v) :: erase rest key

/-- Write all entries of the second list, in its order. -/
def putAll (entries : Entries α) (more : Entries α) : Entries α :=
  more.foldl (fun acc e => put acc e.1 e.2) entries

/-- The entries of a text that may repeat a name: the first position and the last value count. -/
def ofList (written : Entries α) : Entries α :=
  putAll [] written

/-- The names in order. -/
def keys (entries : Entries α) : List String :=
  entries.map Prod.fst

/-! ## Laws -/

theorem find?_put_self (entries : Entries α) (key : String) (value : α) :
    find? (put entries key value) key = some value := by
  induction entries with
  | nil => simp [put, find?]
  | cons e rest ih =>
    obtain ⟨k, v⟩ := e
    by_cases h : k = key
    · simp [put, find?, h]
    · simp [put, find?, h, ih]

theorem find?_put_of_ne (entries : Entries α) {key other : String} (value : α) (h : other ≠ key) :
    find? (put entries key value) other = find? entries other := by
  induction entries with
  | nil => simp [put, find?, Ne.symm h]
  | cons e rest ih =>
    obtain ⟨k, v⟩ := e
    by_cases hk : k = key
    · subst hk
      simp [put, find?, Ne.symm h]
    · by_cases ho : k = other
      · simp [put, find?, ho, h]
      · simp [put, find?, hk, ho, ih]

end Entries

end ShellQuery
