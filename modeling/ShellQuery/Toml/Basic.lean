import ShellQuery.Entries

/-!
# Values of a TOML document

A TOML document is a table of named values.  Of floating-point numbers and of dates only the kind
is kept, since no setting holds one.
-/

namespace ShellQuery

/-- A TOML value. -/
inductive Toml where
  | string (value : String)
  | integer (value : Int)
  | float
  | boolean (value : Bool)
  | dateTime
  | array (items : List Toml)
  | table (entries : List (String × Toml))
deriving Inhabited

namespace Toml

/-! ## Characters -/

/-- Space within a line. -/
def isSpace (c : Char) : Bool :=
  c = ' ' || c = '\t'

/-- Characters that a comment or a quoted text may hold: all but the control characters, of which
    the tab is allowed. -/
def isPrintable (c : Char) : Bool :=
  c = '\t' || (0x20 ≤ c.toNat && c.toNat ≠ 0x7F)

/-- Drop space at the front of a line. -/
def dropSpace (s : List Char) : List Char :=
  s.dropWhile isSpace

/-- The text behind a line break, of which there are two forms. -/
def dropBreak? : List Char → Option (List Char)
  | '\n' :: r => some r
  | '\r' :: '\n' :: r => some r
  | _ => none

/-- The text behind a comment, when there is one; it starts with a line break or is empty. -/
def dropComment : List Char → List Char
  | '#' :: r => r.dropWhile isPrintable
  | s => s

/-- The text behind the end of a line: space, a comment and a line break or the end of the text. -/
def dropLineEnd? (s : List Char) : Option (List Char) :=
  match dropComment (dropSpace s) with
  | [] => some []
  | rest => dropBreak? rest

end Toml

end ShellQuery
