import ShellQuery.Json.Basic
import ShellQuery.Text.Integer

/-!
# Tokens of a JSON text

A JSON text is a sequence of tokens with optional space between them.  The lexer works on lists of
characters: each step takes one token off the front.  Strings have no raw control character and
only the escapes of the format; numbers have no leading zero and no sign but `-`.
-/

namespace ShellQuery.Json

/-! ## Tokens -/

/-- A lexical element of a JSON text. -/
inductive Token where
  | openArray
  | closeArray
  | openObject
  | closeObject
  | comma
  | colon
  | leaf (value : Json)
deriving Inhabited

/-- Space between tokens: blank, tab, line feed and carriage return. -/
def isSpace (c : Char) : Bool :=
  c = ' ' || c = '\t' || c = '\n' || c = '\r'

/-! ## Strings -/

/-- The character of a one-letter escape. -/
def plainEscape? : Char → Option Char
  | '"' => some '"'
  | '\\' => some '\\'
  | '/' => some '/'
  | 'b' => some '\x08'
  | 'f' => some '\x0c'
  | 'n' => some '\n'
  | 'r' => some '\r'
  | 't' => some '\t'
  | _ => none

/-- Four hexadecimal digits as a code unit of 16 bits. -/
def hexUnit? (a b c d : Char) : Option Nat :=
  Text.natOfHex? [a, b, c, d]

/-- The character of a code unit that stands alone. -/
def unitChar? (unit : Nat) : Option Char :=
  if 0xD800 ≤ unit ∧ unit ≤ 0xDFFF then none else some (Char.ofNat unit)

/-- The character of two code units, the first from the high and the second from the low half. -/
def pairChar? (high low : Nat) : Option Char :=
  if 0xD800 ≤ high ∧ high ≤ 0xDBFF ∧ 0xDC00 ≤ low ∧ low ≤ 0xDFFF then
    some (Char.ofNat (0x10000 + (high - 0xD800) * 0x400 + (low - 0xDC00)))
  else none

/-- Read a string body up to its closing quote; the result holds the characters and the rest. -/
def readString : List Char → Option (List Char × List Char)
  | [] => none
  | '"' :: r => some ([], r)
  | '\\' :: 'u' :: a :: b :: c :: d :: r =>
    match hexUnit? a b c d with
    | none => none
    | some unit =>
      match unitChar? unit with
      | some ch => extend ch (readString r)
      | none =>
        match r with
        | '\\' :: 'u' :: a' :: b' :: c' :: d' :: r' =>
          match (hexUnit? a' b' c' d').bind (pairChar? unit) with
          | some ch => extend ch (readString r')
          | none => none
        | _ => none
  | '\\' :: e :: r =>
    match plainEscape? e with
    | some ch => extend ch (readString r)
    | none => none
  | c :: r => if c.toNat < 0x20 ∨ c = '\\' then none else extend c (readString r)
where
  /-- Put a character in front of what the rest of the string gives. -/
  extend (c : Char) : Option (List Char × List Char) → Option (List Char × List Char)
    | some (s, rest) => some (c :: s, rest)
    | none => none

/-! ## Numbers -/

/-- The parts of a written number. -/
structure Numeral where
  negative : Bool
  whole : List Char
  fraction : Option (List Char)
  power : Option (Bool × List Char)

/-- Split a run of digits off the front. -/
def spanDigits (s : List Char) : List Char × List Char :=
  s.span Text.isDigit

/-- The digits before the point: a lone zero, or a run that starts with another digit. -/
def readWhole : List Char → Option (List Char × List Char)
  | '0' :: r => some (['0'], r)
  | s =>
    match spanDigits s with
    | ([], _) => none
    | found => some found

/-- The digits after the point, when there is one. -/
def readFraction : List Char → Option (Option (List Char) × List Char)
  | '.' :: r =>
    match spanDigits r with
    | ([], _) => none
    | (digits, rest) => some (some digits, rest)
  | s => some (none, s)

/-- The digits of a power, which must be there. -/
def readPowerDigits (negative : Bool) (s : List Char) :
    Option (Option (Bool × List Char) × List Char) :=
  match spanDigits s with
  | ([], _) => none
  | (digits, rest) => some (some (negative, digits), rest)

/-- The power of ten, when there is one; its flag tells a negative one. -/
def readPower : List Char → Option (Option (Bool × List Char) × List Char)
  | c :: r =>
    if c = 'e' ∨ c = 'E' then
      match r with
      | '+' :: r' => readPowerDigits false r'
      | '-' :: r' => readPowerDigits true r'
      | _ => readPowerDigits false r
    else some (none, c :: r)
  | [] => some (none, [])

/-- The parts of a number at the front of a text, after its sign. -/
def readUnsignedNumeral (negative : Bool) (s : List Char) : Option (Numeral × List Char) := do
  let (whole, s) ← readWhole s
  let (fraction, s) ← readFraction s
  let (power, s) ← readPower s
  some (⟨negative, whole, fraction, power⟩, s)

/-- The parts of a number at the front of a text. -/
def readNumeral : List Char → Option (Numeral × List Char)
  | '-' :: r => readUnsignedNumeral true r
  | s => readUnsignedNumeral false s

/-- Take digits into a significand while it fits 64 bits, and count those that were taken; the rest
    of the digits is left over. -/
def takeSignificand : Nat → Nat → List Char → Nat × Nat × List Char
  | acc, taken, [] => (acc, taken, [])
  | acc, taken, c :: r =>
    let next := acc * 10 + (c.toNat - '0'.toNat)
    if next < Text.bound64 then takeSignificand next (taken + 1) r else (acc, taken, c :: r)

/-- Multiply or divide a double by a power of ten in single steps of at most `10 ^ 308`, rounding
    after each.  None when the result is too large; what is too small becomes zero. -/
def scaleByTen : Nat → Double → Int → Option Double
  | 0, d, _ => some d
  | fuel + 1, d, e =>
    if d.isZero then some d
    else if 308 < e then none
    else if e < -308 then
      match (Double.nearest false ⟨Nat.pow 10 308, 1⟩).bind d.over? with
      | some quotient => scaleByTen fuel quotient (e + 308)
      | none => none
    else
      match Double.nearest false ⟨Nat.pow 10 e.natAbs, 1⟩ with
      | some power => if 0 ≤ e then d.times? power else d.over? power
      | none => none

namespace Numeral

/-- Whether the number is written without point and power. -/
def isInteger (n : Numeral) : Bool :=
  n.fraction.isNone && n.power.isNone

/-- The significand of at most 64 bits and the power of ten that goes with it: digits that do not
    fit are dropped, those before the point with a power of ten each. -/
def significand (n : Numeral) : Nat × Int :=
  let (whole, _, left) := takeSignificand 0 0 n.whole
  let (sum, taken, _) := takeSignificand whole 0 (n.fraction.getD [])
  (sum, (left.length : Int) - (taken : Int))

/-- The written power; an exponent of more than 31 bits stands for one beyond every double. -/
def writtenPower (n : Numeral) : Int :=
  match n.power with
  | none => 0
  | some (negative, digits) =>
    let e : Int := min ((Text.natOfDigits? digits).getD 0) 2147483648
    if negative then -e else e

/-- The double of the number: the significand is rounded to a double, which is then scaled by the
    power of ten. -/
def double? (n : Numeral) : Option Double :=
  let (m, places) := n.significand
  match (Double.nearest false ⟨m, 1⟩).bind fun d => scaleByTen 10 d (places + n.writtenPower) with
  | some d => some (if n.negative then d.negate else d)
  | none => none

/-- An integer number in the range of 64 bits, with a sign or without, stays an integer; the
    negative zero and all other numbers are doubles. -/
def toJson? (n : Numeral) : Option Json :=
  let whole := (Text.natOfDigits? n.whole).getD 0
  if n.isInteger && !n.negative && whole < Text.bound64 then some (int whole)
  else if n.isInteger && n.negative && whole != 0 && Text.fitsSigned64 (-(whole : Int)) then
    some (int (-(whole : Int)))
  else n.double?.map float

end Numeral

/-! ## The lexer -/

/-- A word that stands for a value. -/
def readWord : List Char → Option (Json × List Char)
  | 'n' :: 'u' :: 'l' :: 'l' :: r => some (null, r)
  | 't' :: 'r' :: 'u' :: 'e' :: r => some (bool true, r)
  | 'f' :: 'a' :: 'l' :: 's' :: 'e' :: r => some (bool false, r)
  | _ => none

/-- The bracket or separator that a character stands for. -/
def punctuation? : Char → Option Token
  | '[' => some .openArray
  | ']' => some .closeArray
  | '{' => some .openObject
  | '}' => some .closeObject
  | ',' => some .comma
  | ':' => some .colon
  | _ => none

/-- One token off the front of a text that does not start with space. -/
def readToken : List Char → Option (Token × List Char)
  | [] => none
  | c :: r =>
    match punctuation? c with
    | some token => some (token, r)
    | none =>
      if c = '"' then
        (readString r).map fun found => (.leaf (str (String.ofList found.1)), found.2)
      else if c = '-' ∨ Text.isDigit c then
        match readNumeral (c :: r) with
        | some (numeral, rest) => numeral.toJson?.map fun number => (.leaf number, rest)
        | none => none
      else (readWord (c :: r)).map fun found => (.leaf found.1, found.2)

/-- All tokens of a text, with `fuel` no smaller than its length. -/
def readTokens : Nat → List Char → Option (List Token)
  | _, [] => some []
  | 0, _ :: _ => none
  | fuel + 1, c :: r =>
    if isSpace c then readTokens fuel r
    else
      match readToken (c :: r) with
      | some (token, rest) => (readTokens fuel rest).map (token :: ·)
      | none => none

/-- All tokens of a text. -/
def tokens (s : List Char) : Option (List Token) :=
  readTokens s.length s

end ShellQuery.Json
