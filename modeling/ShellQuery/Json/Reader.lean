import ShellQuery.Json.Token

/-!
# Reading a JSON text

A value is a leaf token, a bracketed list of values or a braced list of named values.  Lists and
objects nest at most `maxDepth` deep.  A name that is written twice keeps its first position and
its last value.
-/

namespace ShellQuery.Json

/-- How many lists and objects may stand inside one another. -/
def maxDepth : Nat := 127

/-! ## The grammar as a reader -/

mutual

/-- One value off the front; `depth` is the nesting that is still allowed. -/
def readValue : Nat → Nat → List Token → Option (Json × List Token)
  | 0, _, _ => none
  | _ + 1, _, .leaf value :: ts => some (value, ts)
  | _ + 1, _ + 1, .openArray :: .closeArray :: ts => some (arr [], ts)
  | fuel + 1, depth + 1, .openArray :: ts =>
    match readItems fuel depth ts with
    | some (items, rest) => some (arr items, rest)
    | none => none
  | _ + 1, _ + 1, .openObject :: .closeObject :: ts => some (obj [], ts)
  | fuel + 1, depth + 1, .openObject :: ts =>
    match readFields fuel depth ts with
    | some (fields, rest) => some (obj (Entries.ofList fields), rest)
    | none => none
  | _ + 1, _, _ => none

/-- The values of a list up to its closing bracket; there is at least one. -/
def readItems : Nat → Nat → List Token → Option (List Json × List Token)
  | 0, _, _ => none
  | fuel + 1, depth, ts =>
    match readValue fuel depth ts with
    | some (item, .comma :: rest) =>
      match readItems fuel depth rest with
      | some (items, rest) => some (item :: items, rest)
      | none => none
    | some (item, .closeArray :: rest) => some ([item], rest)
    | _ => none

/-- The named values of an object up to its closing brace; there is at least one. -/
def readFields : Nat → Nat → List Token → Option (List (String × Json) × List Token)
  | 0, _, _ => none
  | fuel + 1, depth, .leaf (str name) :: .colon :: ts =>
    match readValue fuel depth ts with
    | some (item, .comma :: rest) =>
      match readFields fuel depth rest with
      | some (fields, rest) => some ((name, item) :: fields, rest)
      | none => none
    | some (item, .closeObject :: rest) => some ([(name, item)], rest)
    | _ => none
  | _ + 1, _, _ => none

end

/-- The value of a token sequence that holds one value and nothing else, nested at most `depth`
    deep. -/
def ofTokens? (depth : Nat) (ts : List Token) : Option Json :=
  match readValue (2 * ts.length + 1) depth ts with
  | some (value, []) => some value
  | _ => none

/-- The value of a JSON text that nests at most `depth` deep. -/
def readWithin? (depth : Nat) (s : List Char) : Option Json :=
  (tokens s).bind (ofTokens? depth)

/-- The value of a JSON text. -/
def read? (s : List Char) : Option Json :=
  readWithin? maxDepth s

end ShellQuery.Json
