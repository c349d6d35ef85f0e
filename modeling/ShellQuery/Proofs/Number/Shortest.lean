import ShellQuery.Number.Decimal
import ShellQuery.Proofs.Number.Rounding

/-!
# The shortest digits read back

The digits of `Double.shortest` stand for a decimal number that the double is next to.  A decimal
from one of the grids was tested for that, the exact one is the magnitude itself, and dropping zeros
leaves the number as it is.
-/

namespace ShellQuery

/-! ## Decimal numbers -/

namespace Decimal

/-- The rational number that a decimal stands for. -/
def value (d : Decimal) : Rat :=
  d.digits * 10 ^ d.exponent

theorem value_ratio (d : Decimal) : d.ratio.value = d.value := by
  rw [ratio, Double.Ratio.value_dropPower, Nat.cast_ofNat, zpow_neg, div_inv_eq_mul]
  simp [Double.Ratio.value, value]

theorem den_ratio_ne_zero (d : Decimal) : d.ratio.den ≠ 0 :=
  Double.Ratio.den_dropPower_ne_zero one_ne_zero (by decide) _

/-- Decimals of one value have the same double next to them. -/
theorem nearest_ratio_congr {negative : Bool} {c d : Decimal} (h : c.value = d.value) :
    Double.nearest negative c.ratio = Double.nearest negative d.ratio :=
  Double.nearest_congr (den_ratio_ne_zero c) (den_ratio_ne_zero d)
    (by rw [value_ratio, value_ratio, h])

/-- Zeros that move into the exponent do not change the number. -/
theorem value_dropZeros (fuel : Nat) (d : Decimal) : (d.dropZeros fuel).value = d.value := by
  induction fuel generalizing d with
  | zero => rfl
  | succ fuel ih =>
    rw [dropZeros]
    split
    · next hzero =>
      have hdigits : (d.digits : Rat) = (d.digits / 10 : Nat) * 10 := by
        exact_mod_cast (Nat.div_mul_cancel (Nat.dvd_of_mod_eq_zero hzero.2)).symm
      rw [ih, value, value, hdigits, zpow_add₀ (by norm_num)]
      ring
    · rfl

end Decimal

namespace Double

variable {d : Double} {c : Decimal}

/-! ## Reading back -/

theorem readsBack_iff : d.readsBack c = true ↔ nearest d.negative c.ratio = some d :=
  beq_iff_eq

/-- The natural number next to a ratio is its quotient or the one behind it. -/
theorem toNearest_eq_or (r : Ratio) :
    r.toNearest = r.num / r.den ∨ r.toNearest = r.num / r.den + 1 := by
  unfold Ratio.toNearest
  simp only
  split
  · exact .inr rfl
  · exact .inl rfl

theorem readsBack_of_onGrid {e : Int} (h : d.onGrid e = some c) : d.readsBack c = true := by
  simp only [onGrid] at h
  split at h
  · next hlow =>
    split at h
    · next hhigh =>
      -- both neighbours read back, and the nearer one is one of them
      obtain rfl := Option.some.inj h
      obtain hnear | hnear := toNearest_eq_or (d.magnitude.dropPower 10 e)
      · rwa [hnear]
      · rwa [hnear]
    · exact Option.some.inj h ▸ hlow
  · split at h
    · next hhigh => exact Option.some.inj h ▸ hhigh
    · cases h

theorem readsBack_of_firstGrid {fuel : Nat} {e : Int} (h : d.firstGrid fuel e = some c) :
    d.readsBack c = true := by
  induction fuel generalizing e with
  | zero => cases h
  | succ fuel ih =>
    rw [firstGrid] at h
    split at h
    · next hgrid => exact readsBack_of_onGrid (Option.some.inj h ▸ hgrid)
    · exact ih h

/-- The exact decimal is the magnitude. -/
theorem value_exactDecimal (d : Double) : d.exactDecimal.value = d.magnitude.value := by
  rw [value_magnitude]
  unfold exactDecimal
  split
  · next hexponent =>
    obtain ⟨n, hn⟩ := Int.eq_ofNat_of_zero_le hexponent
    simp [Decimal.value, hn]
  · next hexponent =>
    obtain ⟨n, hn⟩ := Int.eq_ofNat_of_zero_le (show 0 ≤ -d.exponent by omega)
    have hneg : d.exponent = -(n : Int) := by omega
    have hfactors : (10 : Rat) ^ n = 5 ^ n * 2 ^ n := by
      rw [← mul_pow]
      norm_num
    simp only [Decimal.value, hneg, neg_neg, Int.toNat_natCast, zpow_neg, zpow_natCast, hfactors,
      Nat.pow_eq, Nat.cast_mul, Nat.cast_pow, Nat.cast_ofNat]
    field_simp

theorem readsBack_exactDecimal (d : Double) : d.readsBack d.exactDecimal = true := by
  have hcongr : nearest d.negative d.exactDecimal.ratio = nearest d.negative d.magnitude :=
    nearest_congr (Decimal.den_ratio_ne_zero _) (den_magnitude_ne_zero d)
      (by rw [Decimal.value_ratio, value_exactDecimal])
  rw [readsBack_iff, hcongr, nearest_magnitude]

/-- A double is next to the number that its shortest digits stand for. -/
theorem nearest_shortest (d : Double) : nearest d.negative d.shortest.ratio = some d := by
  unfold shortest
  split
  · next hzero =>
    have hmantissa : d.mantissa = 0 := eq_of_beq hzero
    rw [eq_zero_of_mantissa_eq_zero hmantissa]
    rfl
  · have hfound : d.readsBack ((d.firstGrid 17 (decimalExponent d.magnitude)).getD d.exactDecimal) =
        true := by
      cases hgrid : d.firstGrid 17 (decimalExponent d.magnitude) with
      | none => exact readsBack_exactDecimal d
      | some c => exact readsBack_of_firstGrid hgrid
    rw [Decimal.nearest_ratio_congr (Decimal.value_dropZeros _ _)]
    exact readsBack_iff.mp hfound

/-- Only zero is written with the digit zero alone, and then without a power of ten. -/
theorem shortest_of_digits_eq_zero (h : d.shortest.digits = 0) : d.shortest = ⟨0, 0⟩ := by
  have hnum : d.shortest.ratio.num = 0 := by
    rw [← Ratio.value_eq_zero (Decimal.den_ratio_ne_zero _), Decimal.value_ratio, Decimal.value, h]
    simp
  have hnearest := nearest_shortest d
  rw [nearest, if_pos hnum, Option.some.injEq] at hnearest
  have hzero : d.isZero = true := by
    rw [← hnearest]
    rfl
  rw [shortest, if_pos hzero]

end Double

end ShellQuery
