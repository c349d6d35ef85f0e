/-!
# Finite binary floating-point numbers of 64 bits

A `Double` is one of the finite numbers of the binary interchange format of 64 bits: a sign, a
biased exponent and a fraction.  Arithmetic is exact on ratios of natural numbers, and `nearest`
takes such a ratio to the nearest `Double`, a tie to the one with the even mantissa.
-/

namespace ShellQuery

/-- A finite number of the format with 64 bits.  Each one has a single representation. -/
structure Double where
  negative : Bool
  biased : Fin 2047
  fraction : Fin 4503599627370496
deriving DecidableEq, Repr

namespace Double

/-! ## The value of a double -/

/-- Zero with the given sign. -/
def zero (negative : Bool) : Double :=
  ⟨negative, 0, 0⟩

/-- The magnitude is `mantissa · 2 ^ exponent`. -/
def mantissa (d : Double) : Nat :=
  if d.biased.val = 0 then d.fraction.val else 4503599627370496 + d.fraction.val

/-- The power of two that the mantissa counts. -/
def exponent (d : Double) : Int :=
  (max d.biased.val 1 : Nat) - 1075

/-- Whether the magnitude is zero. -/
def isZero (d : Double) : Bool :=
  d.mantissa == 0

/-- Whether the number is smaller than any with a full mantissa, and not zero. -/
def isSubnormal (d : Double) : Bool :=
  d.biased.val == 0 && d.fraction.val != 0

/-- The same magnitude with the other sign. -/
def negate (d : Double) : Double :=
  { d with negative := !d.negative }

/-- A ratio of natural numbers, read as `num / den`. -/
structure Ratio where
  num : Nat
  den : Nat

/-- Divide a ratio by a power of `base`. -/
def Ratio.dropPower (r : Ratio) (base : Nat) (e : Int) : Ratio :=
  if 0 ≤ e then ⟨r.num, r.den * Nat.pow base e.toNat⟩
  else ⟨r.num * Nat.pow base (-e).toNat, r.den⟩

/-- The natural number next to a ratio; of two that are equally near, the even one. -/
def Ratio.toNearest (r : Ratio) : Nat :=
  let q := r.num / r.den
  let rest := r.num % r.den
  if r.den < 2 * rest || (2 * rest == r.den && q % 2 == 1) then q + 1 else q

/-- The magnitude as an exact ratio. -/
def magnitude (d : Double) : Ratio :=
  Ratio.dropPower ⟨d.mantissa, 1⟩ 2 (-d.exponent)

/-! ## Rounding -/

/-- The double with the given mantissa, which has at most 53 bits, and exponent; none when the
    exponent is too large. -/
def assemble (negative : Bool) (m : Nat) (e : Int) : Option Double :=
  if m < 4503599627370496 then
    some ⟨negative, 0, Fin.ofNat 4503599627370496 m⟩
  else
    let biased := (e + 1075).toNat
    if biased < 2047 then
      some ⟨negative, Fin.ofNat 2047 biased, Fin.ofNat 4503599627370496 (m - 4503599627370496)⟩
    else none

/-- The double next to a ratio, none when the ratio lies beyond the largest one. -/
def nearest (negative : Bool) (r : Ratio) : Option Double :=
  if r.num = 0 then some (zero negative)
  else
    let guess : Int := max ((Nat.log2 r.num : Int) - (Nat.log2 r.den : Int) - 53) (-1074)
    let scaled := r.dropPower 2 guess
    let e := if scaled.num / scaled.den < 9007199254740992 then guess else guess + 1
    let m := (r.dropPower 2 e).toNearest
    if m = 9007199254740992 then assemble negative 4503599627370496 (e + 1)
    else assemble negative m e

/-- The double next to a natural number below `2 ^ 1024`. -/
def ofNat? (n : Nat) : Option Double :=
  nearest false ⟨n, 1⟩

/-- The rounded product of two doubles, none when it lies beyond the largest one. -/
def times? (a b : Double) : Option Double :=
  let x := a.magnitude
  let y := b.magnitude
  nearest (a.negative != b.negative) ⟨x.num * y.num, x.den * y.den⟩

/-- The rounded quotient of two doubles, the second of which is not zero. -/
def over? (a b : Double) : Option Double :=
  let x := a.magnitude
  let y := b.magnitude
  nearest (a.negative != b.negative) ⟨x.num * y.den, x.den * y.num⟩

end Double

end ShellQuery
