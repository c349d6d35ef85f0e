import ShellQuery.Bson.Basic

/-!
# Decimal numbers of 128 bits

A finite number has a coefficient of at most 34 digits and an exponent between -6176 and 6111.
Reading never rounds: digits that do not fit must be zeros.  Writing is canonical, and keeps the
zeros at the end of the coefficient.
-/

namespace ShellQuery.Decimal128

/-! ## Limits -/

/-- The number of digits of the largest coefficient. -/
def maxDigits : Nat := 34

/-- The least exponent. -/
def minExponent : Int := -6176

/-- The largest exponent. -/
def maxExponent : Int := 6111

/-! ## Reading -/

/-- Split at the first occurrence of a character, which belongs to neither part. -/
def splitAt (mark : Char) (s : List Char) : List Char × Option (List Char) :=
  match s.span (· ≠ mark) with
  | (before, _ :: after) => (before, some after)
  | (before, []) => (before, none)

/-- Keep the first `count` digits when all the others are zeros. -/
def dropExact (count : Nat) (digits : List Char) : Option (List Char) :=
  if (digits.drop count).all (· = '0') then some (digits.take count) else none

/-- The digits without zeros in front; a lone zero stays. -/
def dropLeadingZeros (digits : List Char) : List Char :=
  match digits.dropWhile (· = '0') with
  | [] => ['0']
  | rest => rest

/-- Digits and exponent with at most 34 digits. -/
def fitDigits (digits : List Char) (e : Int) : Option (List Char × Int) :=
  if maxDigits < digits.length then do
    let kept ← dropExact maxDigits digits
    let e := e + (digits.length - kept.length : Nat)
    if Text.fitsSigned16 e then some (kept, e) else none
  else some (digits, e)

/-- Digits and exponent with the exponent not below the least one. -/
def raiseExponent (digits : List Char) (e : Int) : Option (List Char × Int) :=
  if minExponent ≤ e then some (digits, e)
  else if digits = ['0'] then some (digits, minExponent)
  else
    let excess := (minExponent - e).toNat
    if digits.length < excess then none
    else (dropExact (digits.length - excess) digits).map fun kept => (kept, minExponent)

/-- Digits and exponent with the exponent not above the largest one. -/
def lowerExponent (digits : List Char) (e : Int) : Option (List Char × Int) :=
  if e ≤ maxExponent then some (digits, e)
  else if digits = ['0'] then some (digits, maxExponent)
  else
    let excess := (e - maxExponent).toNat
    if maxDigits < digits.length + excess then none
    else some (digits ++ List.replicate excess '0', maxExponent)

/-- A finite number from its text without a sign. -/
def readFinite? (negative : Bool) (s : List Char) : Option Decimal128 := do
  let (number, power) := splitAt 'e' s
  let e ← match power with
    | none => some 0
    | some digits => Text.readSigned16 digits
  let (whole, fraction) := splitAt '.' number
  let places := fraction.getD []
  let e := e - places.length
  if !Text.fitsSigned16 e then none
  else
    let (digits, e) ← fitDigits (dropLeadingZeros (whole ++ places)) e
    let (digits, e) ← raiseExponent digits e
    let (digits, e) ← lowerExponent digits e
    let coefficient ← Text.readNatural digits
    some (finite negative coefficient e)

/-- A number from its text without a sign. -/
def readUnsigned? (negative : Bool) (s : List Char) : Option Decimal128 :=
  let s := FloatValue.lowerAscii s
  let word := String.ofList s
  if word = "nan" then some (nan negative false)
  else if word = "snan" then some (nan negative true)
  else if word = "inf" ∨ word = "infinity" then some (infinite negative)
  else readFinite? negative s

/-- The number that a text writes. -/
def read? : List Char → Option Decimal128
  | '-' :: r => readUnsigned? true r
  | '+' :: r => readUnsigned? false r
  | s => readUnsigned? false s

/-! ## Writing -/

/-- The text of a coefficient and its exponent: positional while the exponent is not positive and
    at most five zeros follow the point, scientific otherwise. -/
def finiteText (coefficient : Nat) (e : Int) : List Char :=
  let digits := Text.natDigits coefficient
  let leading := e + digits.length - 1
  if e ≤ 0 ∧ -6 ≤ leading then
    let places := (-e).toNat
    if places = 0 then digits
    else if places < digits.length then
      digits.take (digits.length - places) ++ '.' :: digits.drop (digits.length - places)
    else '0' :: '.' :: (List.replicate (places - digits.length) '0' ++ digits)
  else
    let power := 'E' :: ((if 0 < leading then ['+'] else []) ++ Text.intDigits leading)
    match digits with
    | c :: d :: rest => c :: '.' :: d :: (rest ++ power)
    | _ => digits ++ power

/-- The canonical text of a number. -/
def text : Decimal128 → List Char
  | finite negative coefficient e =>
    (if negative then ['-'] else []) ++ finiteText coefficient e
  | infinite negative => (if negative then ['-'] else []) ++ "Infinity".toList
  | nan _ _ => "NaN".toList

/-! ## The interchange form -/

/-- The lowest bytes of a number, the least significant first. -/
def littleEndian : Nat → Nat → List Nat
  | 0, _ => []
  | count + 1, n => n % 256 :: littleEndian count (n / 256)

/-- The sixteen bytes of the binary interchange form, the least significant first. -/
def bytes : Decimal128 → List Nat
  | finite negative coefficient e =>
    littleEndian 16
      ((if negative then Nat.pow 2 127 else 0) + (e + 6176).toNat * Nat.pow 2 113 + coefficient)
  | infinite negative =>
    littleEndian 16 ((if negative then Nat.pow 2 127 else 0) + 0x78 * Nat.pow 2 120)
  | nan negative signalling =>
    littleEndian 16
      ((if negative then Nat.pow 2 127 else 0) +
        (if signalling then 0x7E else 0x7C) * Nat.pow 2 120)

end ShellQuery.Decimal128
