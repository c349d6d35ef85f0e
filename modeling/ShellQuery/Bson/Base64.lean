/-!
# Bytes as text

Base sixty-four writes three bytes as four characters of the standard alphabet and fills up the
last group with `=`.  Reading accepts what writing produces and nothing else.
-/

namespace ShellQuery.Base64

/-! ## The alphabet -/

/-- The character of a group of six bits. -/
def digit (n : Nat) : Char :=
  if n < 26 then Char.ofNat ('A'.toNat + n)
  else if n < 52 then Char.ofNat ('a'.toNat + (n - 26))
  else if n < 62 then Char.ofNat ('0'.toNat + (n - 52))
  else if n = 62 then '+'
  else '/'

/-- The six bits of a character. -/
def value? (c : Char) : Option Nat :=
  if 'A' ≤ c ∧ c ≤ 'Z' then some (c.toNat - 'A'.toNat)
  else if 'a' ≤ c ∧ c ≤ 'z' then some (c.toNat - 'a'.toNat + 26)
  else if '0' ≤ c ∧ c ≤ '9' then some (c.toNat - '0'.toNat + 52)
  else if c = '+' then some 62
  else if c = '/' then some 63
  else none

/-! ## Writing and reading -/

/-- The text of a byte sequence. -/
def encode : List Nat → List Char
  | [] => []
  | [a] => [digit (a / 4), digit (a % 4 * 16), '=', '=']
  | [a, b] => [digit (a / 4), digit (a % 4 * 16 + b / 16), digit (b % 16 * 4), '=']
  | a :: b :: c :: rest =>
    digit (a / 4) :: digit (a % 4 * 16 + b / 16) :: digit (b % 16 * 4 + c / 64) ::
      digit (c % 64) :: encode rest

/-- The byte of a last group with one byte; its other bits must be zero. -/
def lastOne (w x : Char) : Option (List Nat) := do
  let w ← value? w
  let x ← value? x
  if x % 16 = 0 then some [w * 4 + x / 16] else none

/-- The bytes of a last group with two bytes; its other bits must be zero. -/
def lastTwo (w x y : Char) : Option (List Nat) := do
  let w ← value? w
  let x ← value? x
  let y ← value? y
  if y % 4 = 0 then some [w * 4 + x / 16, x % 16 * 16 + y / 4] else none

/-- The bytes of a full group. -/
def fullGroup (w x y z : Char) : Option (List Nat) := do
  let w ← value? w
  let x ← value? x
  let y ← value? y
  let z ← value? z
  some [w * 4 + x / 16, x % 16 * 16 + y / 4, y % 4 * 64 + z]

/-- The bytes that a text writes. -/
def decode : List Char → Option (List Nat)
  | [] => some []
  | [w, x, '=', '='] => lastOne w x
  | [w, x, y, '='] => lastTwo w x y
  | w :: x :: y :: z :: rest =>
    match fullGroup w x y z, decode rest with
    | some bytes, some more => some (bytes ++ more)
    | _, _ => none
  | _ => none

end ShellQuery.Base64
