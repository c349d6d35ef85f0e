import ShellQuery.Number.Double
import ShellQuery.Text.Integer

/-!
# Decimal text of a double

`Double.shortest` gives the fewest decimal digits that round to the number they stand for, and of
those the nearest.  Positional text writes the digits around a point; scientific text writes one
digit, a point and a power of ten.
-/

namespace ShellQuery

/-- The number `digits · 10 ^ exponent`. -/
structure Decimal where
  digits : Nat
  exponent : Int
deriving DecidableEq, Repr

namespace Decimal

/-- The exact ratio. -/
def ratio (d : Decimal) : Double.Ratio :=
  Double.Ratio.dropPower ⟨d.digits, 1⟩ 10 (-d.exponent)

/-- Move zeros at the end of the digits into the exponent, at most `fuel` of them. -/
def dropZeros : Nat → Decimal → Decimal
  | 0, d => d
  | fuel + 1, d =>
    if d.digits ≠ 0 ∧ d.digits % 10 = 0 then dropZeros fuel ⟨d.digits / 10, d.exponent + 1⟩
    else d

end Decimal

namespace Double

/-! ## The fewest digits -/

/-- The power of ten at or just below a positive ratio, as an exponent. -/
def decimalExponent (r : Ratio) : Int :=
  let guess := ((Nat.log2 r.num : Int) - (Nat.log2 r.den : Int) - 1) * 30103 / 100000
  let above := r.dropPower 10 (guess + 1)
  if above.den ≤ above.num then guess + 1 else guess

/-- Whether the decimal rounds to the magnitude of `d`. -/
def readsBack (d : Double) (c : Decimal) : Bool :=
  nearest d.negative c.ratio == some d

/-- Of the two neighbours on the grid of `10 ^ e`, the one that reads back; of two such, the nearer
    one, and of two equally near the even one. -/
def onGrid (d : Double) (e : Int) : Option Decimal :=
  let scaled := d.magnitude.dropPower 10 e
  let low : Nat := scaled.num / scaled.den
  let lower : Decimal := ⟨low, e⟩
  let upper : Decimal := ⟨low + 1, e⟩
  if d.readsBack lower then
    if d.readsBack upper then some ⟨scaled.toNearest, e⟩ else some lower
  else if d.readsBack upper then some upper
  else none

/-- The first of the grids below `top`, each ten times finer than the one before, that has a
    decimal reading back. -/
def firstGrid (d : Double) : Nat → Int → Option Decimal
  | 0, _ => none
  | fuel + 1, e =>
    match d.onGrid e with
    | some c => some c
    | none => firstGrid d fuel (e - 1)

/-- The exact decimal value. -/
def exactDecimal (d : Double) : Decimal :=
  if 0 ≤ d.exponent then ⟨d.mantissa * Nat.pow 2 d.exponent.toNat, 0⟩
  else ⟨d.mantissa * Nat.pow 5 (-d.exponent).toNat, d.exponent⟩

/-- The fewest digits that read back as the magnitude of `d`. -/
def shortest (d : Double) : Decimal :=
  if d.isZero then ⟨0, 0⟩
  else
    let found := (d.firstGrid 17 (decimalExponent d.magnitude)).getD d.exactDecimal
    found.dropZeros 800

end Double

namespace Decimal

/-! ## Text -/

/-- Positional text with a point and at least one digit on either side of it. -/
def positional (d : Decimal) : List Char :=
  let digits := Text.natDigits d.digits
  if 0 ≤ d.exponent then
    digits ++ List.replicate d.exponent.toNat '0' ++ ['.', '0']
  else
    let places := (-d.exponent).toNat
    if places < digits.length then
      digits.take (digits.length - places) ++ '.' :: digits.drop (digits.length - places)
    else '0' :: '.' :: (List.replicate (places - digits.length) '0' ++ digits)

/-- The exponent of the leading digit. -/
def leadingExponent (d : Decimal) : Int :=
  d.exponent + (Text.natDigits d.digits).length - 1

/-- One digit, the others after a point, and the power of ten with its sign. -/
def scientific (d : Decimal) : List Char :=
  let e := d.leadingExponent
  let power := 'e' :: (if e < 0 then '-' else '+') :: Text.natDigits e.natAbs
  match Text.natDigits d.digits with
  | [] => power
  | [c] => c :: power
  | c :: rest => c :: '.' :: (rest ++ power)

end Decimal

namespace Double

/-- A minus sign for a negative number, also for the negative zero. -/
def withSign (d : Double) (text : List Char) : List Char :=
  if d.negative then '-' :: text else text

/-- The positional text of the shortest digits. -/
def positionalText (d : Double) : List Char :=
  d.withSign d.shortest.positional

/-- The text of a number in a document: positional while the leading digit stands between the
    fifth place after the point and the sixteenth before it, scientific elsewhere. -/
def documentText (d : Double) : List Char :=
  let c := d.shortest
  let e := c.leadingExponent
  d.withSign (if -5 ≤ e ∧ e ≤ 15 then c.positional else c.scientific)

end Double

end ShellQuery
