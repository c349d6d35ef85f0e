import ShellQuery.Toml.Basic

/-!
# Building the tables of a TOML document

While a document is read, each table remembers how it came to be, since that decides what may still
be added to it.  A table is *implied* by a longer header, *opened* by a header of its own, or
*dotted*, made by the dotted name of a value.  A value, also an inline table, is closed.
-/

namespace ShellQuery.Toml

/-! ## Nodes -/

/-- How a table came to be. -/
inductive Origin where
  | implied
  | opened
  | dotted
deriving DecidableEq, Repr

/-- A named part of a document that is being read. -/
inductive Node where
  | value (v : Toml)
  | table (origin : Origin) (entries : List (String × Node))
  | tables (items : List (List (String × Node)))

/-- Replace the last item of a list, none when the list is empty. -/
def updateLast? {α : Type} (f : α → Option α) : List α → Option (List α)
  | [] => none
  | [a] => (f a).map ([·])
  | a :: rest => (updateLast? f rest).map (a :: ·)

/-! ## Adding values -/

/-- Add a value under a dotted name.  The tables on the way are made by dotted names alone. -/
def insertDotted : List String → String → Toml → Entries Node → Option (Entries Node)
  | [], key, v, entries =>
    if Entries.has entries key then none else some (entries ++ [(key, .value v)])
  | name :: path, key, v, entries =>
    match Entries.find? entries name with
    | none => (insertDotted path key v []).map fun sub => entries ++ [(name, .table .dotted sub)]
    | some (.table origin sub) =>
      if origin = .opened ∨ (path = [] ∧ origin ≠ .dotted) then none
      else
        (insertDotted path key v sub).map fun sub => Entries.put entries name (.table origin sub)
    | some _ => none

/-- Apply a change to the entries of the table that a header has opened. -/
def modifyAt (change : Entries Node → Option (Entries Node)) :
    List String → Entries Node → Option (Entries Node)
  | [], entries => change entries
  | name :: path, entries =>
    match Entries.find? entries name with
    | some (.table origin sub) =>
      (modifyAt change path sub).map fun sub => Entries.put entries name (.table origin sub)
    | some (.tables items) =>
      (updateLast? (modifyAt change path) items).map fun items =>
        Entries.put entries name (.tables items)
    | _ => none

/-! ## Opening tables -/

/-- Open the table of a header.  Each table is opened once. -/
def openTable : List String → Entries Node → Option (Entries Node)
  | [], _ => none
  | [name], entries =>
    match Entries.find? entries name with
    | none => some (entries ++ [(name, .table .opened [])])
    | some (.table .implied sub) => some (Entries.put entries name (.table .opened sub))
    | some _ => none
  | name :: next :: path, entries =>
    match Entries.find? entries name with
    | none =>
      (openTable (next :: path) []).map fun sub => entries ++ [(name, .table .implied sub)]
    | some (.table origin sub) =>
      (openTable (next :: path) sub).map fun sub => Entries.put entries name (.table origin sub)
    | some (.tables items) =>
      (updateLast? (openTable (next :: path)) items).map fun items =>
        Entries.put entries name (.tables items)
    | some (.value _) => none

/-- Add a table to the list of tables of a header. -/
def openItem : List String → Entries Node → Option (Entries Node)
  | [], _ => none
  | [name], entries =>
    match Entries.find? entries name with
    | none => some (entries ++ [(name, .tables [[]])])
    | some (.tables items) => some (Entries.put entries name (.tables (items ++ [[]])))
    | some _ => none
  | name :: next :: path, entries =>
    match Entries.find? entries name with
    | none => (openItem (next :: path) []).map fun sub => entries ++ [(name, .table .implied sub)]
    | some (.table origin sub) =>
      (openItem (next :: path) sub).map fun sub => Entries.put entries name (.table origin sub)
    | some (.tables items) =>
      (updateLast? (openItem (next :: path)) items).map fun items =>
        Entries.put entries name (.tables items)
    | some (.value _) => none

/-! ## The finished document -/

mutual

/-- The value of a node. -/
def Node.toToml : Node → Toml
  | .value v => v
  | .table _ entries => .table (nodesToToml entries)
  | .tables items => .array (itemsToToml items)

/-- The values of named nodes. -/
def nodesToToml : List (String × Node) → List (String × Toml)
  | [] => []
  | (name, node) :: rest => (name, node.toToml) :: nodesToToml rest

/-- The values of the tables of a list. -/
def itemsToToml : List (List (String × Node)) → List Toml
  | [] => []
  | entries :: rest => .table (nodesToToml entries) :: itemsToToml rest

end

end ShellQuery.Toml
