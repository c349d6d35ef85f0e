import ShellQuery.Text.Integer

/-!
# Dates of the civil calendar

A point in time is a number of milliseconds since the start of 1970 in universal time.  Its text
has a date, a time of day with an optional fraction of a second, and an offset.  Years run from 0
to 9999, and the calendar's leap-year rule holds in all of them.
-/

namespace ShellQuery.Calendar

/-! ## Days -/

/-- Every fourth year is a leap year, but of the full centuries only every fourth. -/
def isLeap (year : Nat) : Bool :=
  year % 4 == 0 && (year % 100 != 0 || year % 400 == 0)

/-- The number of days from the start of year 0 to the start of the given year. -/
def daysBeforeYear (year : Nat) : Nat :=
  365 * year + (year + 3) / 4 + (year + 399) / 400 - (year + 99) / 100

/-- The lengths of the months. -/
def monthLengths (year : Nat) : List Nat :=
  [31, if isLeap year then 29 else 28, 31, 30, 31, 30, 31, 31, 30, 31, 30, 31]

/-- The number of days from the start of year 0 to the start of 1970. -/
def epochDay : Nat := 719528

/-- A calendar date; months and days count from one. -/
structure Date where
  year : Nat
  month : Nat
  day : Nat
deriving DecidableEq, Repr

/-- Whether month and day exist in the year. -/
def Date.isValid (d : Date) : Bool :=
  1 ≤ d.month && 1 ≤ d.day &&
    match (monthLengths d.year)[d.month - 1]? with
    | some length => d.day ≤ length
    | none => false

/-- The number of days from the start of year 0 to the date. -/
def Date.dayNumber (d : Date) : Nat :=
  daysBeforeYear d.year + ((monthLengths d.year).take (d.month - 1)).foldr (· + ·) 0 + (d.day - 1)

/-- The year in which the day with the given number lies. -/
def yearOfDay (n : Nat) : Nat :=
  let guess := n * 400 / 146097
  if n < daysBeforeYear guess then guess - 1
  else if daysBeforeYear (guess + 1) ≤ n then guess + 1
  else guess

/-- The month and the day of the month for a day of the year that counts from zero; `month` is the
    number of the first of the remaining months. -/
def monthOfDay : List Nat → Nat → Nat → Nat × Nat
  | [], month, n => (month, n + 1)
  | length :: rest, month, n =>
    if n < length then (month, n + 1) else monthOfDay rest (month + 1) (n - length)

/-- The date of the day with the given number. -/
def dateOfDay (n : Nat) : Date :=
  let year := yearOfDay n
  let (month, day) := monthOfDay (monthLengths year) 1 (n - daysBeforeYear year)
  ⟨year, month, day⟩

/-! ## Writing a point in time -/

/-- Milliseconds of a day. -/
def millisPerDay : Nat := 86400000

/-- The last millisecond of year 9999. -/
def lastMillis : Int := 253402300799999

/-- A fraction of a second in milliseconds, without zeros at the end; nothing when it is zero. -/
def fractionText (millis : Nat) : List Char :=
  if millis = 0 then []
  else '.' :: ((Text.paddedDigits 3 millis).reverse.dropWhile (· = '0')).reverse

/-- The text of a point in time at or after the start of 1970. -/
def instantText (millis : Nat) : List Char :=
  let date := dateOfDay (epochDay + millis / millisPerDay)
  let rest := millis % millisPerDay
  Text.paddedDigits 4 date.year ++ '-' :: (Text.paddedDigits 2 date.month ++
    '-' :: (Text.paddedDigits 2 date.day ++ 'T' :: (Text.paddedDigits 2 (rest / 3600000) ++
    ':' :: (Text.paddedDigits 2 (rest / 60000 % 60) ++ ':' :: (Text.paddedDigits 2
    (rest / 1000 % 60) ++ fractionText (rest % 1000) ++ ['Z'])))))

/-! ## Reading a point in time -/

/-- A fixed number of digits off the front. -/
def readDigits : Nat → Nat → List Char → Option (Nat × List Char)
  | 0, acc, s => some (acc, s)
  | count + 1, acc, c :: r =>
    match Text.digitValue? c with
    | some d => readDigits count (acc * 10 + d) r
    | none => none
  | _ + 1, _, [] => none

/-- The given character off the front. -/
def expect (c : Char) : List Char → Option (List Char)
  | d :: r => if d = c then some r else none
  | [] => none

/-- Any single character of one byte off the front: the mark between date and time of day. -/
def skipSeparator : List Char → Option (List Char)
  | c :: r => if c.toNat < 0x80 then some r else none
  | [] => none

/-- The nanoseconds of the digits after the point, of which nine count. -/
def nanosOf (digits : List Char) : Nat :=
  let kept := digits.take 9
  (Text.natOfDigits? kept).getD 0 * Nat.pow 10 (9 - kept.length)

/-- The fraction of a second in nanoseconds, zero when there is none. -/
def readFraction : List Char → Option (Nat × List Char)
  | '.' :: r =>
    match r.span Text.isDigit with
    | ([], _) => none
    | (digits, rest) => some (nanosOf digits, rest)
  | s => some (0, s)

/-- Hours and minutes of an offset, in minutes. -/
def readOffsetDigits (s : List Char) : Option Nat := do
  let (hours, s) ← readDigits 2 0 s
  let s ← expect ':' s
  let (minutes, s) ← readDigits 2 0 s
  if s.isEmpty && hours ≤ 23 && minutes ≤ 59 then some (hours * 60 + minutes) else none

/-- The offset at the end of the text, in minutes east of universal time. -/
def readOffset : List Char → Option Int
  | ['Z'] => some 0
  | ['z'] => some 0
  | '+' :: r => (readOffsetDigits r).map fun n => (n : Int)
  | '-' :: r => (readOffsetDigits r).map fun n => -(n : Int)
  | _ => none

/-- Whether a second of universal time is the last one of a month. -/
def endsMonth (seconds : Int) : Bool :=
  let next := seconds + 1
  let day := next / 86400 + epochDay
  next % 86400 == 0 && 0 ≤ day && (dateOfDay day.toNat).day == 1

/-- The milliseconds of a text with date, time of day and offset.  Less than a millisecond is cut
    off toward 1970.  A sixtieth second is allowed where a leap second can be, and then stands for
    the last moment of the second before. -/
def readInstant (s : List Char) : Option Int := do
  let (year, s) ← readDigits 4 0 s
  let s ← expect '-' s
  let (month, s) ← readDigits 2 0 s
  let s ← expect '-' s
  let (day, s) ← readDigits 2 0 s
  let s ← skipSeparator s
  let (hour, s) ← readDigits 2 0 s
  let s ← expect ':' s
  let (minute, s) ← readDigits 2 0 s
  let s ← expect ':' s
  let (second, s) ← readDigits 2 0 s
  let (nanos, s) ← readFraction s
  let offset ← readOffset s
  let date : Date := ⟨year, month, day⟩
  let leap := second == 60
  let second := if leap then 59 else second
  let nanos := if leap then 999999999 else nanos
  if date.isValid && hour ≤ 23 && minute ≤ 59 && second ≤ 59 then
    let seconds : Int :=
      ((date.dayNumber : Int) - epochDay) * 86400 + (hour * 3600 + minute * 60 + second : Nat)
        - offset * 60
    if leap && !endsMonth seconds then none
    else some (Int.tdiv (seconds * 1000000000 + nanos) 1000000)
  else none

end ShellQuery.Calendar
