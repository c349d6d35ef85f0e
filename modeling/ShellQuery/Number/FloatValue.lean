import ShellQuery.Number.Decimal

/-!
# Floating-point values with infinities

A stored floating-point value is a finite double, an infinity or no number at all.  The text form
is the usual one: digits with an optional point and power of ten, or a word for the special values
in any case of its letters.
-/

namespace ShellQuery

/-- A floating-point value of 64 bits. -/
inductive FloatValue where
  | finite (value : Double)
  | infinite (negative : Bool)
  | nan (negative : Bool)
deriving DecidableEq, Repr

namespace FloatValue

/-! ## Reading -/

/-- ASCII letters in lower case. -/
def lowerAscii (s : List Char) : List Char :=
  s.map Char.toLower

/-- The double next to `digits · 10 ^ exponent`, infinite beyond the largest one. -/
def ofDecimal (negative : Bool) (digits : List Char) (exponent : Int) : FloatValue :=
  let digits := digits.dropWhile (· = '0')
  let m := (Text.natOfDigits? digits).getD 0
  let leading := exponent + digits.length
  if m = 0 ∨ leading < -400 then finite (Double.zero negative)
  else if 400 < leading then infinite negative
  else
    match Double.nearest negative (Decimal.ratio ⟨m, exponent⟩) with
    | some d => finite d
    | none => infinite negative

/-- The power of ten at the end of a number: nothing, or a mark and a signed run of digits. -/
def readPower? : List Char → Option Int
  | [] => some 0
  | c :: r => if c = 'e' ∨ c = 'E' then Text.readInteger r else none

/-- Digits with an optional point among them and an optional power of ten behind. -/
def readDecimal? (negative : Bool) (s : List Char) : Option FloatValue :=
  let (whole, rest) := s.span Text.isDigit
  let (fraction, rest) :=
    match rest with
    | '.' :: r => r.span Text.isDigit
    | r => ([], r)
  if whole.isEmpty && fraction.isEmpty then none
  else
    (readPower? rest).map fun e => ofDecimal negative (whole ++ fraction) (e - fraction.length)

/-- A value without its sign. -/
def readUnsigned? (negative : Bool) (s : List Char) : Option FloatValue :=
  let word := String.ofList (lowerAscii s)
  if word = "inf" ∨ word = "infinity" then some (infinite negative)
  else if word = "nan" then some (nan negative)
  else readDecimal? negative s

/-- The value that a text writes. -/
def read? : List Char → Option FloatValue
  | '-' :: r => readUnsigned? true r
  | '+' :: r => readUnsigned? false r
  | s => readUnsigned? false s

end FloatValue

end ShellQuery
