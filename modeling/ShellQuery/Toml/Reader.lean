import ShellQuery.Toml.Quoted
import ShellQuery.Toml.Scalar
import ShellQuery.Toml.Tree

/-!
# Reading a TOML document

A document is a sequence of lines: a header opens a table, a line with `=` adds a value to the open
table.  Lists may run over several lines, inline tables may not.  Lists and inline tables nest at
most `maxDepth` deep.
-/

namespace ShellQuery.Toml

/-- How many lists and inline tables may stand inside one another. -/
def maxDepth : Nat := 80

/-! ## Names -/

/-- Characters of a name that is not quoted. -/
def isBareChar (c : Char) : Bool :=
  c.isAlphanum || c = '_' || c = '-'

/-- One part of a name. -/
def readName (s : List Char) : Option (String × List Char) :=
  match readShortText s with
  | some (name, rest) => some (String.ofList name, rest)
  | none =>
    match s.span isBareChar with
    | ([], _) => none
    | (name, rest) => some (String.ofList name, rest)

/-- A dotted name, with `fuel` no smaller than the length of the text; space may stand around its
    dots. -/
def readPath : Nat → List Char → Option (List String × List Char)
  | 0, _ => none
  | fuel + 1, s => do
    let (name, rest) ← readName (dropSpace s)
    match dropSpace rest with
    | '.' :: more =>
      let (names, rest) ← readPath fuel more
      some (name :: names, rest)
    | rest => some ([name], rest)

/-- A dotted name and the text behind it. -/
def readKey (s : List Char) : Option (List String × List Char) :=
  readPath (s.length + 1) s

/-! ## Values -/

/-- Drop space, comments and line breaks, with `fuel` no smaller than the length of the text. -/
def dropLayout : Nat → List Char → List Char
  | 0, s => s
  | fuel + 1, s =>
    match dropBreak? (dropComment (dropSpace s)) with
    | some rest => dropLayout fuel rest
    | none => dropComment (dropSpace s)

mutual

/-- One value; `depth` is the nesting that is still allowed. -/
def readValue : Nat → Nat → List Char → Option (Toml × List Char)
  | 0, _, _ => none
  | _ + 1, _, [] => none
  | fuel + 1, depth, c :: r =>
    if c = '"' ∨ c = '\'' then
      (readText (c :: r)).map fun found => (string (String.ofList found.1), found.2)
    else if c = '[' then
      match depth with
      | 0 => none
      | depth + 1 => (readItems fuel depth r).map fun found => (array found.1, found.2)
    else if c = '{' then
      match depth, dropSpace r with
      | 0, _ => none
      | _ + 1, '}' :: rest => some (table [], rest)
      | depth + 1, rest =>
        (readFields fuel depth [] rest).map fun found => (table (nodesToToml found.1), found.2)
    else readScalar (c :: r)

/-- The items of a list up to its closing bracket; a comma may follow the last one. -/
def readItems : Nat → Nat → List Char → Option (List Toml × List Char)
  | 0, _, _ => none
  | fuel + 1, depth, s =>
    match dropLayout s.length s with
    | ']' :: rest => some ([], rest)
    | rest => do
      let (item, rest) ← readValue fuel depth rest
      match dropLayout rest.length rest with
      | ']' :: rest => some ([item], rest)
      | ',' :: rest =>
        let (items, rest) ← readItems fuel depth rest
        some (item :: items, rest)
      | _ => none

/-- The entries of an inline table up to its closing brace, added to those before. -/
def readFields : Nat → Nat → Entries Node → List Char → Option (Entries Node × List Char)
  | 0, _, _, _ => none
  | fuel + 1, depth, entries, s => do
    let (path, rest) ← readKey s
    let rest ← Calendar.expect '=' rest
    let (v, rest) ← readValue fuel depth (dropSpace rest)
    let entries ← insertDotted path.dropLast (path.getLast?.getD "") v entries
    match dropSpace rest with
    | '}' :: rest => some (entries, rest)
    | ',' :: rest => readFields fuel depth entries rest
    | _ => none

end

/-! ## Lines -/

/-- A document that is being read: its tables and the name of the open one. -/
structure Draft where
  path : List String
  entries : Entries Node

/-- A header behind its bracket: the draft with the table opened, and the text behind the line. -/
def readHeader (draft : Draft) (s : List Char) : Option (Draft × List Char) := do
  let (path, rest) ← readKey s
  let rest ← Calendar.expect ']' rest
  let entries ← openTable path draft.entries
  let rest ← dropLineEnd? rest
  some (⟨path, entries⟩, rest)

/-- A header behind its two brackets. -/
def readItemHeader (draft : Draft) (s : List Char) : Option (Draft × List Char) := do
  let (path, rest) ← readKey s
  let rest ← Calendar.expect ']' rest
  let rest ← Calendar.expect ']' rest
  let entries ← openItem path draft.entries
  let rest ← dropLineEnd? rest
  some (⟨path, entries⟩, rest)

/-- A line with a value. -/
def readAssignment (draft : Draft) (s : List Char) : Option (Draft × List Char) := do
  let (path, rest) ← readKey s
  let rest ← Calendar.expect '=' rest
  let rest := dropSpace rest
  let (v, rest) ← readValue (2 * rest.length + 1) maxDepth rest
  let add := insertDotted path.dropLast (path.getLast?.getD "") v
  let entries ← modifyAt add draft.path draft.entries
  let rest ← dropLineEnd? rest
  some (⟨draft.path, entries⟩, rest)

/-- One line that is not blank. -/
def readLine (draft : Draft) : List Char → Option (Draft × List Char)
  | '[' :: '[' :: r => readItemHeader draft r
  | '[' :: r => readHeader draft r
  | s => readAssignment draft s

/-- All lines, with `fuel` no smaller than the length of the text. -/
def readLines : Nat → Draft → List Char → Option (Entries Node)
  | _, draft, [] => some draft.entries
  | 0, _, _ :: _ => none
  | fuel + 1, draft, s =>
    match dropLineEnd? s with
    | some rest => readLines fuel draft rest
    | none => do
      let (draft, rest) ← readLine draft (dropSpace s)
      readLines fuel draft rest

/-- Drop the mark that may stand at the front of a document. -/
def dropByteMark : List Char → List Char
  | '\uFEFF' :: r => r
  | s => s

/-- The table of a document. -/
def parse? (s : String) : Option (Entries Toml) :=
  let body := dropByteMark s.toList
  (readLines (body.length + 1) ⟨[], []⟩ body).map nodesToToml

end ShellQuery.Toml
