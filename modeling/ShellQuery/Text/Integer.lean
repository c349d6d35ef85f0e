/-!
# Decimal integers in a text

A decimal integer is a non-empty run of the digits `0` to `9`, after an optional sign.  Bounds are
part of reading: a number outside of them is no number of that width.
-/

namespace ShellQuery.Text

/-! ## Digits -/

/-- The value of a decimal digit. -/
def digitValue? (c : Char) : Option Nat :=
  if '0' ≤ c ∧ c ≤ '9' then some (c.toNat - '0'.toNat) else none

/-- Whether the character is one of `0` to `9`. -/
def isDigit (c : Char) : Bool :=
  (digitValue? c).isSome

/-- The value of a hexadecimal digit of either case. -/
def hexValue? (c : Char) : Option Nat :=
  if '0' ≤ c ∧ c ≤ '9' then some (c.toNat - '0'.toNat)
  else if 'a' ≤ c ∧ c ≤ 'f' then some (c.toNat - 'a'.toNat + 10)
  else if 'A' ≤ c ∧ c ≤ 'F' then some (c.toNat - 'A'.toNat + 10)
  else none

/-- Whether the character is a hexadecimal digit. -/
def isHexDigit (c : Char) : Bool :=
  (hexValue? c).isSome

/-- The number that continues `acc` with the given digits of the given base. -/
def accumulate (base : Nat) (value? : Char → Option Nat) : Nat → List Char → Option Nat
  | acc, [] => some acc
  | acc, c :: r =>
    match value? c with
    | some d => accumulate base value? (acc * base + d) r
    | none => none

/-- The number that a non-empty run of decimal digits writes. -/
def natOfDigits? : List Char → Option Nat
  | [] => none
  | s => accumulate 10 digitValue? 0 s

/-- The number that a non-empty run of hexadecimal digits writes. -/
def natOfHex? : List Char → Option Nat
  | [] => none
  | s => accumulate 16 hexValue? 0 s

/-! ## Bounded integers -/

/-- Numbers of 64 bits stay below this bound. -/
def bound64 : Nat := 18446744073709551616

/-- Whether the integer fits 64 bits with a sign. -/
def fitsSigned64 (i : Int) : Bool :=
  -9223372036854775808 ≤ i && i ≤ 9223372036854775807

/-- Whether the integer fits 32 bits with a sign. -/
def fitsSigned32 (i : Int) : Bool :=
  -2147483648 ≤ i && i ≤ 2147483647

/-- Whether the integer fits 16 bits with a sign. -/
def fitsSigned16 (i : Int) : Bool :=
  -32768 ≤ i && i ≤ 32767

/-- An integer of either sign; the sign `+` may be written. -/
def readInteger : List Char → Option Int
  | '-' :: r => (natOfDigits? r).map fun n => -(n : Int)
  | '+' :: r => (natOfDigits? r).map fun n => (n : Int)
  | s => (natOfDigits? s).map fun n => (n : Int)

/-- A natural number; the sign `+` may be written, and `-` may not, even before zero. -/
def readNatural : List Char → Option Nat
  | '+' :: r => natOfDigits? r
  | s => natOfDigits? s

/-- A signed integer of 64 bits. -/
def readSigned64 (s : List Char) : Option Int :=
  (readInteger s).filter fitsSigned64

/-- A signed integer of 32 bits. -/
def readSigned32 (s : List Char) : Option Int :=
  (readInteger s).filter fitsSigned32

/-- A signed integer of 16 bits. -/
def readSigned16 (s : List Char) : Option Int :=
  (readInteger s).filter fitsSigned16

/-- An unsigned integer of 64 bits. -/
def readUnsigned64 (s : List Char) : Option Nat :=
  (readNatural s).filter (· < bound64)

/-! ## Writing -/

/-- The decimal digits of a natural number. -/
def natDigits (n : Nat) : List Char :=
  Nat.toDigits 10 n

/-- The decimal digits of an integer, with `-` in front of a negative one. -/
def intDigits (i : Int) : List Char :=
  if i < 0 then '-' :: natDigits i.natAbs else natDigits i.natAbs

/-- The decimal digits of a natural number, filled up with zeros to a least width. -/
def paddedDigits (width n : Nat) : List Char :=
  let digits := natDigits n
  List.replicate (width - digits.length) '0' ++ digits

/-- One digit of base sixteen, in lower case. -/
def hexDigit (n : Nat) : Char :=
  Nat.digitChar (n % 16)

/-- A byte as two lower-case hexadecimal digits. -/
def hexByte (n : Nat) : List Char :=
  [hexDigit (n / 16), hexDigit n]

end ShellQuery.Text
