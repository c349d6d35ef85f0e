import ShellQuery.Query.Malformed
import ShellQuery.Text.Bytes

/-!
# Balanced brackets

A group starts with one of the brackets `(`, `[` and `{` and ends with the closing bracket that
belongs to it.  Brackets nest to any depth.  Between a quote and the next quote of the same kind
brackets have no meaning; there a backslash takes the meaning of the character after it.

The scan keeps the closing brackets that are still due, the innermost first.
-/

namespace ShellQuery.Bracket

/-! ## Brackets -/

/-- The closing bracket that belongs to an opening one. -/
def closer? : Char → Option Char
  | '(' => some ')'
  | '[' => some ']'
  | '{' => some '}'
  | _ => none

/-- Whether the character is a closing bracket. -/
def isCloser (c : Char) : Bool :=
  c = ')' || c = ']' || c = '}'

/-- Whether the character starts a quoted part. -/
def isQuote (c : Char) : Bool :=
  c = '"' || c = '\''

/-- Where the scan stands: between quoted parts, inside one, or behind a backslash in one. -/
inductive Mode where
  | code
  | quoted (quote : Char)
  | escaped (quote : Char)
deriving DecidableEq, Repr

/-! ## The scan -/

/-- A group's text between its brackets and the text after the closing one. -/
structure Group where
  inside : List Char
  rest : List Char
deriving DecidableEq, Repr

/-- Put a character in front of what the scan finds inside. -/
def Group.cons (c : Char) (g : Group) : Group :=
  ⟨c :: g.inside, g.rest⟩

/-- Scan for the closing bracket of the outermost group: `due` are the closing brackets still to
    come after `closer`, and `position` counts the bytes before the text. -/
def scan (closer : Char) (due : List Char) : Mode → Nat → List Char → Except Malformed Group
  | .code, _, [] => .error (.unbalanced (due.length + 1))
  | .quoted _, _, [] => .error .openString
  | .escaped _, _, [] => .error .openString
  | .escaped q, position, c :: r =>
    (scan closer due (.quoted q) (position + c.utf8Size) r).map (Group.cons c)
  | .quoted q, position, c :: r =>
    let mode := if c = '\\' then .escaped q else if c = q then .code else .quoted q
    (scan closer due mode (position + c.utf8Size) r).map (Group.cons c)
  | .code, position, c :: r =>
    if isQuote c then
      (scan closer due (.quoted c) (position + c.utf8Size) r).map (Group.cons c)
    else
      match closer? c with
      | some inner =>
        (scan inner (closer :: due) .code (position + c.utf8Size) r).map (Group.cons c)
      | none =>
        if isCloser c then
          if c = closer then
            match due with
            | [] => .ok ⟨[], r⟩
            | outer :: due =>
              (scan outer due .code (position + c.utf8Size) r).map (Group.cons c)
          else .error (.wrongCloser closer c position)
        else (scan closer due .code (position + c.utf8Size) r).map (Group.cons c)

/-- The group at the start of a text, which stands `position` bytes into the scanned one. -/
def group (position : Nat) : List Char → Except Malformed Group
  | [] => .error (.noOpener position none)
  | c :: r =>
    match closer? c with
    | some closer => scan closer [] .code (position + c.utf8Size) r
    | none => .error (.noOpener position (some c))

/-- The byte position of the closing bracket of the group that opens at a byte position. -/
def matchingClose (text : List Char) (position : Nat) : Except Malformed Nat :=
  match Text.dropBytes position text with
  | none => .error (.outOfRange position)
  | some tail => (group position tail).map fun g => position + 1 + Text.byteLength g.inside

end ShellQuery.Bracket
