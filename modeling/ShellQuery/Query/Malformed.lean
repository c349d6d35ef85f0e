import ShellQuery.Text.Visible
import ShellQuery.Text.Integer

/-!
# Why a query text cannot be read

Each cause has one message.  Positions count bytes from the start of the text that was scanned.
-/

namespace ShellQuery

/-- A reason for which a query text or a tail of chained calls is rejected. -/
inductive Malformed where
  | outOfRange (position : Nat)
  | noOpener (position : Nat) (found : Option Char)
  | wrongCloser (expected found : Char) (position : Nat)
  | openString
  | unbalanced (left : Nat)
  | noParenthesis
  | noCollection
  | emptyDatabase
  | noOperationAfter (collection : String)
  | noOperation
  | notACall
  | noDot (found : String)
  | noArgument (text : String)
  | badName (name : String)
  | badNumber (name argument : String)
  | stated (text : String)
deriving DecidableEq, Repr

namespace Malformed

/-- A natural number in a message. -/
def number (n : Nat) : String :=
  String.ofList (Text.natDigits n)

/-- A single character in a message. -/
def letter (c : Char) : String :=
  String.ofList [c]

/-- The message of a cause. -/
def message : Malformed → String
  | outOfRange position => "bracket position " ++ number position ++ " is out of range"
  | noOpener position found =>
    "expected an opening bracket at position " ++ number position ++ ", found " ++
      Text.shownAt found
  | wrongCloser expected found position =>
    "expected '" ++ letter expected ++ "' but found '" ++ letter found ++ "' at position " ++
      number position
  | openString => "unterminated string literal"
  | unbalanced left => "unbalanced brackets: " ++ number left ++ " left open"
  | noParenthesis => "expected '(' after the operation name"
  | noCollection => "missing collection name"
  | emptyDatabase => "empty database name"
  | noOperationAfter collection =>
    "missing operation name after collection '" ++ collection ++ "'"
  | noOperation => "missing operation name"
  | notACall => "expected a call, found a ';'-terminated statement"
  | noDot found => "expected '.' before chained call, found '" ++ found ++ "'"
  | noArgument text => "chained call '" ++ text ++ "' has no '('"
  | badName name => "invalid chained call name '" ++ name ++ "'"
  | badNumber name argument => name ++ "() expects a number, got '" ++ argument ++ "'"
  | stated text => text

end Malformed

end ShellQuery
