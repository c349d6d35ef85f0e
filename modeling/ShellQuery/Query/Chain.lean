import ShellQuery.Query.Bracket
import ShellQuery.Text.Alphanumeric

/-!
# Chained calls

Behind a call further calls may be chained, each a dot, a name and an argument in parentheses.  Of
these only the first `limit` and the first `skip` have an effect.
-/

namespace ShellQuery

/-- One chained call; its argument is the trimmed text between the parentheses. -/
structure ChainedCall where
  name : String
  argument : String
deriving DecidableEq, Repr

namespace Chain

/-! ## Splitting a tail -/

/-- Whether the character may stand in the name of a chained call. -/
def isNameChar (c : Char) : Bool :=
  Text.isAlphanumeric c || c = '_' || c = '$'

/-- A chained call together with the text behind it. -/
structure Step where
  call : ChainedCall
  rest : List Char

/-- The call behind a dot.  `position` counts the bytes before the text. -/
def readCall (position : Nat) (s : List Char) : Except Malformed Step :=
  match Text.splitFirst? '(' s with
  | none => .error (.noArgument (String.ofList s))
  | some (before, after) =>
    let name := Text.trim before
    if name.isEmpty || !name.all isNameChar then .error (.badName (String.ofList name))
    else do
      let g ← Bracket.group (position + Text.byteLength before) ('(' :: after)
      .ok ⟨⟨String.ofList name, String.ofList (Text.trim g.inside)⟩, g.rest⟩

/-- The chained calls of a tail, of which `total` is the length in bytes, with `fuel` no smaller
    than the number of characters. -/
def splitWith (total : Nat) : Nat → List Char → Except Malformed (List ChainedCall)
  | 0, _ => .ok []
  | fuel + 1, s =>
    match Text.dropBlank s with
    | [] => .ok []
    | c :: r =>
      if c = '.' then do
        let step ← readCall (total - Text.byteLength r) r
        let calls ← splitWith total fuel step.rest
        .ok (step.call :: calls)
      else .error (.noDot (String.ofList (c :: r)))

/-- The chained calls of a tail in the order of the text. -/
def split (tail : List Char) : Except Malformed (List ChainedCall) :=
  splitWith (Text.byteLength tail) (tail.length + 1) tail

end Chain

/-! ## Cursor modifiers -/

/-- How many results a cursor gives and how many it leaves out first. -/
structure Modifiers where
  limit : Option Int
  skip : Option Nat
deriving DecidableEq, Repr

namespace Modifiers

/-- No modifier at all. -/
def none : Modifiers := ⟨Option.none, Option.none⟩

/-- Whether there is no modifier. -/
def isEmpty (m : Modifiers) : Bool :=
  m.limit.isNone && m.skip.isNone

/-- Whether a call has the given name, in any case of the letters `a` to `z`. -/
def isNamed (name : String) (call : ChainedCall) : Bool :=
  call.name.toList.map Char.toLower == name.toList

/-- The error of a call whose argument is no number. -/
def badNumber (call : ChainedCall) : Malformed :=
  .badNumber call.name call.argument

/-- Add the effect of one call: a `limit` or a `skip` counts when none came before it. -/
def add (m : Modifiers) (call : ChainedCall) : Except Malformed Modifiers :=
  if isNamed "limit" call && m.limit.isNone then
    match Text.readSigned64 call.argument.toList with
    | some n => .ok { m with limit := some n }
    | Option.none => .error (badNumber call)
  else if isNamed "skip" call && m.skip.isNone then
    match Text.readUnsigned64 call.argument.toList with
    | some n => .ok { m with skip := some n }
    | Option.none => .error (badNumber call)
  else .ok m

/-- The modifiers of a chain. -/
def ofCalls (calls : List ChainedCall) : Except Malformed Modifiers :=
  calls.foldlM add none

/-- The modifiers of a tail of chained calls. -/
def ofTail (tail : List Char) : Except Malformed Modifiers := do
  let calls ← Chain.split tail
  ofCalls calls

end Modifiers

end ShellQuery
