import ShellQuery.Toml.Basic
import ShellQuery.Bson.Calendar
import ShellQuery.Number.FloatValue

/-!
# Numbers, dates and truth values in TOML

Between two digits of a number a low line may stand.  A decimal number has no zero in front;
numbers of the bases two, eight and sixteen have a mark and no sign.  Dates and times of day may
stand alone or together, with an offset or without.
-/

namespace ShellQuery.Toml

/-! ## Digits -/

/-- The digits of a run in which a low line may stand between two digits. -/
def digits? (isDigit : Char → Bool) : List Char → Option (List Char)
  | [] => none
  | [c] => if isDigit c then some [c] else none
  | c :: '_' :: d :: r =>
    if isDigit c && isDigit d then (digits? isDigit (d :: r)).map (c :: ·) else none
  | c :: d :: r => if isDigit c then (digits? isDigit (d :: r)).map (c :: ·) else none

/-- Decimal digits with no zero in front of another digit. -/
def wholeDigits? (s : List Char) : Option (List Char) :=
  match digits? Text.isDigit s with
  | some ('0' :: _ :: _) => none
  | found => found

/-- A text without its sign, and whether the sign was `-`. -/
def dropSign : List Char → Bool × List Char
  | '-' :: r => (true, r)
  | '+' :: r => (false, r)
  | s => (false, s)

/-! ## Numbers -/

/-- The value of the digits of a base. -/
def basedInteger? (base : Nat) (s : List Char) : Option Int := do
  let isDigit := fun c => ((Text.hexValue? c).any (· < base))
  let digits ← digits? isDigit s
  let value ← Text.accumulate base Text.hexValue? 0 digits
  some value

/-- An integer. -/
def integer? (s : List Char) : Option Int :=
  match s with
  | '0' :: 'x' :: r => basedInteger? 16 r
  | '0' :: 'o' :: r => basedInteger? 8 r
  | '0' :: 'b' :: r => basedInteger? 2 r
  | _ =>
    let (negative, rest) := dropSign s
    ((wholeDigits? rest).bind Text.natOfDigits?).map fun n => if negative then -(n : Int) else n

/-- Whether an integer is within reach of 128 bits, with a sign or without. -/
def isReachable (i : Int) : Bool :=
  -170141183460469231731687303715884105728 ≤ i && i < 340282366920938463463374607431768211456

/-- The digits of a power of ten, after its mark. -/
def powerDigits? (s : List Char) : Option (List Char) :=
  match s with
  | '-' :: r => (digits? Text.isDigit r).map ('-' :: ·)
  | '+' :: r => digits? Text.isDigit r
  | _ => digits? Text.isDigit s

/-- The part of a number behind its whole digits: a fraction, a power of ten or both. -/
def floatRest? : List Char → Option (List Char)
  | '.' :: r => do
    let (places, rest) := r.span fun c => Text.isDigit c || c = '_'
    let places ← digits? Text.isDigit places
    match rest with
    | [] => some ('.' :: places)
    | 'e' :: p => (powerDigits? p).map fun power => '.' :: (places ++ 'e' :: power)
    | 'E' :: p => (powerDigits? p).map fun power => '.' :: (places ++ 'e' :: power)
    | _ => none
  | 'e' :: p => (powerDigits? p).map ('e' :: ·)
  | 'E' :: p => (powerDigits? p).map ('e' :: ·)
  | _ => none

/-- Whether the text is a floating-point number; digits of a number beyond all doubles are none. -/
def isFloat (s : List Char) : Bool :=
  let (_, rest) := dropSign s
  if String.ofList rest = "inf" ∨ String.ofList rest = "nan" then true
  else
    let (whole, rest) := rest.span fun c => Text.isDigit c || c = '_'
    match wholeDigits? whole, floatRest? rest with
    | some digits, some rest =>
      match FloatValue.read? (digits ++ rest) with
      | some (.finite _) => true
      | _ => false
    | _, _ => false

/-! ## Dates -/

/-- The text behind a date. -/
def dropDate? (s : List Char) : Option (List Char) := do
  let (year, s) ← Calendar.readDigits 4 0 s
  let s ← Calendar.expect '-' s
  let (month, s) ← Calendar.readDigits 2 0 s
  let s ← Calendar.expect '-' s
  let (day, s) ← Calendar.readDigits 2 0 s
  if Calendar.Date.isValid ⟨year, month, day⟩ then some s else none

/-- The text behind a time of day. -/
def dropTime? (s : List Char) : Option (List Char) := do
  let (hour, s) ← Calendar.readDigits 2 0 s
  let s ← Calendar.expect ':' s
  let (minute, s) ← Calendar.readDigits 2 0 s
  let s ← Calendar.expect ':' s
  let (second, s) ← Calendar.readDigits 2 0 s
  let (_, s) ← Calendar.readFraction s
  if hour ≤ 23 && minute ≤ 59 && second ≤ 60 then some s else none

/-- Whether the text is an offset from universal time, or empty. -/
def isOffset (s : List Char) : Bool :=
  s.isEmpty || (Calendar.readOffset s).isSome

/-- Whether the character may stand between date and time of day. -/
def isDateMark (c : Char) : Bool :=
  c = 'T' || c = 't' || c = ' '

/-- Whether the text is a date, a time of day, or both. -/
def isDateTime (s : List Char) : Bool :=
  match dropDate? s with
  | some [] => true
  | some (mark :: r) => isDateMark mark && (dropTime? r).any isOffset
  | none => dropTime? s == some []

/-! ## Any scalar -/

/-- Characters of a scalar that is not quoted. -/
def isScalarChar (c : Char) : Bool :=
  c.isAlphanum || c = '_' || c = '+' || c = '-' || c = '.' || c = ':'

/-- The text of a scalar and the text behind it; behind a date a blank may join a time of day. -/
def spanScalar (s : List Char) : List Char × List Char :=
  let (word, rest) := s.span isScalarChar
  match rest with
  | ' ' :: d :: r =>
    if dropDate? word == some [] && Text.isDigit d then
      let (time, rest) := (d :: r).span isScalarChar
      (word ++ ' ' :: time, rest)
    else (word, rest)
  | _ => (word, rest)

/-- The value of the text of a scalar. -/
def scalarValue? (s : List Char) : Option Toml :=
  if s = "true".toList then some (boolean true)
  else if s = "false".toList then some (boolean false)
  else
    match integer? s with
    | some i => if isReachable i then some (integer i) else none
    | none => if isFloat s then some float else if isDateTime s then some dateTime else none

/-- A scalar that is not quoted, and the text behind it. -/
def readScalar (s : List Char) : Option (Toml × List Char) :=
  let (word, rest) := spanScalar s
  (scalarValue? word).map fun value => (value, rest)

end ShellQuery.Toml
