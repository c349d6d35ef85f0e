import ShellQuery.Text.Alphanumeric

/-!
# The text of a script

A script goes to the server as program text.  There an object id is a call `ObjectId("…")`, so each
literal of the form `{"$oid": "…"}` is replaced by such a call.  Blank characters may stand between
all parts of a literal, and its name is recognised in any case.
-/

namespace ShellQuery.ScriptText

/-! ## Literals -/

/-- Take a character off the front, and the blank characters behind it. -/
def dropMark (mark : Char) : List Char → Option (List Char)
  | c :: r => if c = mark then some (Text.dropBlank r) else none
  | [] => none

/-- Take the name `$oid` off the front, in any case, and the blank characters behind it. -/
def dropName : List Char → Option (List Char)
  | a :: b :: c :: d :: r =>
    if [a, b, c, d].map Char.toLower = ['$', 'o', 'i', 'd'] then some (Text.dropBlank r) else none
  | _ => none

/-- Whether the character may stand in the id of a literal. -/
def isIdChar (c : Char) : Bool :=
  Text.isAlphanumeric c || c = '_'

/-- The id of a literal at the front of a text and the text behind the literal. -/
def readLiteral (s : List Char) : Option (List Char × List Char) := do
  let s ← dropMark '{' s
  let s ← dropMark '"' s
  let s ← dropName s
  let s ← dropMark '"' s
  let s ← dropMark ':' s
  let s ← dropMark '"' s
  let id := s.takeWhile isIdChar
  if id.isEmpty then none
  else
    let s := Text.dropBlank (s.dropWhile isIdChar)
    let s ← dropMark '"' s
    match s with
    | '}' :: rest => some (id.map Char.toLower, rest)
    | _ => none

/-- The call that stands for an id. -/
def idCall (id : List Char) : List Char :=
  "ObjectId(\"".toList ++ id ++ "\")".toList

/-! ## Replacing -/

/-- Replace the literals of a text, with `fuel` no smaller than its length. -/
def replaceWith : Nat → List Char → List Char
  | _, [] => []
  | 0, s => s
  | fuel + 1, c :: r =>
    match readLiteral (c :: r) with
    | some (id, rest) => idCall id ++ replaceWith fuel rest
    | none => c :: replaceWith fuel r

/-- Replace each literal of a text by a call. -/
def replaceIds (s : List Char) : List Char :=
  replaceWith s.length s

/-- The program text for a script: its outcome is what it assigns to `result`. -/
def program (script : String) : String :=
  "var result=null;" ++ String.ofList (replaceIds script.toList) ++ "result;"

end ShellQuery.ScriptText
