import Mathlib.Algebra.Order.Field.Power
import Mathlib.Data.Int.Log
import Mathlib.Data.Rat.Floor
import Mathlib.Tactic.FieldSimp
import Mathlib.Tactic.Linarith
import Mathlib.Tactic.Positivity
import Mathlib.Tactic.Ring
import ShellQuery.Number.Double

/-!
# Rounding to a double

`Double.nearest` computes with a numerator and a denominator.  Read as a rational number, the ratio
alone decides: it is rounded to a natural number on the grid of a power of two, `quantum`, that
leaves it 53 bits.

The main statements are `nearest_congr`, equal ratios have the same double next to them,
`nearest_magnitude`, a double is next to its own magnitude, and `nearest_closest`, no double is
closer than the one found.
-/

namespace ShellQuery.Double

/-! ## Ratios -/

/-- The rational number that a ratio stands for. -/
def Ratio.value (r : Ratio) : Rat :=
  r.num / r.den

theorem Ratio.value_eq_zero {r : Ratio} (hden : r.den ≠ 0) : r.value = 0 ↔ r.num = 0 := by
  simp [Ratio.value, hden]

theorem Ratio.value_pos {r : Ratio} (hnum : r.num ≠ 0) (hden : r.den ≠ 0) : 0 < r.value :=
  div_pos (Nat.cast_pos.mpr (Nat.pos_of_ne_zero hnum)) (Nat.cast_pos.mpr (Nat.pos_of_ne_zero hden))

theorem Ratio.value_dropPower (r : Ratio) (base : Nat) (e : Int) :
    (r.dropPower base e).value = r.value / (base : Rat) ^ e := by
  obtain ⟨n, rfl | rfl⟩ := e.eq_nat_or_neg
  · simp [Ratio.dropPower, Ratio.value, div_div]
  · obtain rfl | hn := Nat.eq_zero_or_pos n
    · simp [Ratio.dropPower, Ratio.value]
    · have hneg : ¬ (0 : Int) ≤ -(n : Int) := by omega
      simp only [Ratio.dropPower, if_neg hneg, Ratio.value, neg_neg, Int.toNat_natCast,
        zpow_neg, zpow_natCast, div_inv_eq_mul, Nat.pow_eq, Nat.cast_mul, Nat.cast_pow]
      ring

theorem Ratio.den_dropPower_ne_zero {r : Ratio} (hden : r.den ≠ 0) {base : Nat} (hbase : base ≠ 0)
    (e : Int) : (r.dropPower base e).den ≠ 0 := by
  unfold Ratio.dropPower
  split
  · exact Nat.mul_ne_zero hden (pow_ne_zero _ hbase)
  · exact hden

theorem value_magnitude (d : Double) : d.magnitude.value = d.mantissa * 2 ^ d.exponent := by
  rw [magnitude, Ratio.value_dropPower, Nat.cast_two, zpow_neg, div_inv_eq_mul]
  simp [Ratio.value]

theorem den_magnitude_ne_zero (d : Double) : d.magnitude.den ≠ 0 :=
  Ratio.den_dropPower_ne_zero one_ne_zero two_ne_zero _

/-! ## Rounding to a natural number -/

/-- The natural number next to `q`; of two that are equally near, the even one. -/
def RoundsTo (q : Rat) (n : Nat) : Prop :=
  |q - n| < 1 / 2 ∨ |q - n| = 1 / 2 ∧ Even n

theorem RoundsTo.distance_le {q : Rat} {n : Nat} (h : RoundsTo q n) : |q - n| ≤ 1 / 2 := by
  obtain h | ⟨h, -⟩ := h
  · exact h.le
  · exact h.le

theorem roundsTo_natCast (n : Nat) : RoundsTo n n := by
  left
  norm_num

/-- Two different natural numbers are at least one apart. -/
private theorem one_le_abs_sub {m n : Nat} (h : m ≠ n) : (1 : Rat) ≤ |(m : Rat) - n| := by
  have hint : (1 : Int) ≤ |(m : Int) - n| := Int.one_le_abs (by omega)
  exact_mod_cast hint

/-- No natural number is closer, and one that is as close makes the rounded one even. -/
theorem RoundsTo.closest {q : Rat} {n : Nat} (h : RoundsTo q n) {k : Nat} (hk : k ≠ n) :
    |q - n| < |q - k| ∨ |q - n| = |q - k| ∧ Even n := by
  have hapart := one_le_abs_sub hk
  have htriangle : |(k : Rat) - n| ≤ |q - k| + |q - n| := by
    have heq : (k : Rat) - n = (q - n) - (q - k) := by ring
    rw [heq, add_comm]
    exact abs_sub _ _
  obtain hless | ⟨hhalf, heven⟩ := h
  · exact .inl (by linarith)
  · obtain hlt | heq := lt_or_eq_of_le (show |q - n| ≤ |q - k| by linarith)
    · exact .inl hlt
    · exact .inr ⟨heq, heven⟩

theorem RoundsTo.unique {q : Rat} {m n : Nat} (hm : RoundsTo q m) (hn : RoundsTo q n) : m = n := by
  by_contra hne
  -- both are at the same distance, so both are even and yet one apart
  have heven : Even m ∧ Even n ∧ |q - m| = |q - n| := by
    obtain hlt | ⟨heq, hm'⟩ := hm.closest (Ne.symm hne)
    · obtain hgt | ⟨heq, -⟩ := hn.closest hne
      · exact absurd hlt hgt.not_gt
      · exact absurd hlt heq.not_gt
    · obtain hgt | ⟨-, hn'⟩ := hn.closest hne
      · exact absurd heq hgt.ne'
      · exact ⟨hm', hn', heq⟩
  have htriangle : |(m : Rat) - n| ≤ 1 := by
    have heq : (m : Rat) - n = (q - n) - (q - m) := by ring
    rw [heq]
    have hsum := abs_sub (q - n) (q - m)
    have hmd := hm.distance_le
    have hnd := hn.distance_le
    linarith
  have hint : |(m : Int) - n| ≤ 1 := by exact_mod_cast htriangle
  obtain ⟨⟨a, rfl⟩, ⟨b, rfl⟩, -⟩ := heven
  have hbounds := abs_le.mp hint
  omega

/-- What a quotient leaves of its ratio. -/
private theorem value_sub_quotient {r : Ratio} (hden : r.den ≠ 0) :
    r.value - (r.num / r.den : Nat) = (r.num % r.den : Nat) / r.den := by
  have hpos : (0 : Rat) < r.den := Nat.cast_pos.mpr (Nat.pos_of_ne_zero hden)
  have hdivmod : (r.num : Rat) = r.den * (r.num / r.den : Nat) + (r.num % r.den : Nat) := by
    exact_mod_cast (Nat.div_add_mod r.num r.den).symm
  rw [Ratio.value, hdivmod]
  field_simp
  ring

/-- The distance of a ratio to its quotient. -/
private theorem abs_value_sub_quotient {r : Ratio} (hden : r.den ≠ 0) :
    |r.value - (r.num / r.den : Nat)| = (r.num % r.den : Nat) / r.den := by
  rw [value_sub_quotient hden]
  exact abs_of_nonneg (by positivity)

/-- The distance of a ratio to the number behind its quotient. -/
private theorem abs_value_sub_succ {r : Ratio} (hden : r.den ≠ 0) :
    |r.value - (r.num / r.den + 1 : Nat)| = (r.den - r.num % r.den : Nat) / r.den := by
  have hpos : (0 : Rat) < r.den := Nat.cast_pos.mpr (Nat.pos_of_ne_zero hden)
  have hlt : r.num % r.den < r.den := Nat.mod_lt _ (Nat.pos_of_ne_zero hden)
  have hrest : r.value - (r.num / r.den + 1 : Nat) =
      -((r.den - r.num % r.den : Nat) / r.den) := by
    rw [Nat.cast_add_one, ← sub_sub, value_sub_quotient hden, Nat.cast_sub hlt.le, sub_div,
      div_self hpos.ne', neg_sub]
  rw [hrest, abs_neg]
  exact abs_of_nonneg (by positivity)

theorem Ratio.roundsTo_toNearest {r : Ratio} (hden : r.den ≠ 0) :
    RoundsTo r.value r.toNearest := by
  have hpos : (0 : Rat) < r.den := Nat.cast_pos.mpr (Nat.pos_of_ne_zero hden)
  have hlow := abs_value_sub_quotient hden
  have hhigh := abs_value_sub_succ hden
  unfold Ratio.toNearest
  -- only the quotient and the rest matter from here on
  generalize r.num / r.den = quotient at *
  generalize r.num % r.den = rest at *
  simp only
  split
  · next hup =>
    simp only [Bool.or_eq_true, decide_eq_true_eq, Bool.and_eq_true, beq_iff_eq] at hup
    rw [RoundsTo, hhigh, div_lt_div_iff₀ hpos two_pos, div_eq_div_iff hpos.ne' two_ne_zero]
    norm_cast
    obtain hmore | ⟨hhalf, hodd⟩ := hup
    · left
      omega
    · right
      exact ⟨by omega, Nat.even_add_one.mpr (Nat.not_even_iff.mpr hodd)⟩
  · next hdown =>
    simp only [Bool.or_eq_true, decide_eq_true_eq, Bool.and_eq_true, beq_iff_eq, not_or,
      not_and] at hdown
    rw [RoundsTo, hlow, div_lt_div_iff₀ hpos two_pos, div_eq_div_iff hpos.ne' two_ne_zero]
    norm_cast
    obtain hless | hhalf := lt_or_eq_of_le (show 2 * rest ≤ r.den by omega)
    · left
      omega
    · right
      have hquotient := hdown.2 hhalf
      exact ⟨by omega, Nat.even_iff.mpr (by omega)⟩

/-- On the grid of a power of two. -/
theorem Ratio.roundsTo_dropPower {r : Ratio} (hden : r.den ≠ 0) (e : Int) :
    RoundsTo (r.value / 2 ^ e) (r.dropPower 2 e).toNearest := by
  have hround := Ratio.roundsTo_toNearest (Ratio.den_dropPower_ne_zero hden two_ne_zero e)
  rwa [Ratio.value_dropPower, Nat.cast_two] at hround

/-! ## The grid of a number -/

/-- The exponent of the grid that a number is rounded on: it leaves 53 bits before the point, but
    no grid is finer than that of the smallest double. -/
def quantum (q : Rat) : Int :=
  max (Int.log 2 q - 52) (-1074)

/-- The power of two below a ratio, from the bits of its numerator and denominator. -/
private theorem log_value_bounds {r : Ratio} (hnum : r.num ≠ 0) (hden : r.den ≠ 0) :
    (Nat.log2 r.num : Int) - Nat.log2 r.den - 1 ≤ Int.log 2 r.value ∧
      Int.log 2 r.value ≤ (Nat.log2 r.num : Int) - Nat.log2 r.den := by
  have hvalue := Ratio.value_pos hnum hden
  have hpos : (0 : Rat) < r.den := Nat.cast_pos.mpr (Nat.pos_of_ne_zero hden)
  have hnumLow : (2 : Rat) ^ (Nat.log2 r.num : Int) ≤ r.num := by
    exact_mod_cast Nat.log2_self_le hnum
  have hnumHigh : (r.num : Rat) < 2 ^ ((Nat.log2 r.num : Int) + 1) := by
    exact_mod_cast (Nat.lt_log2_self : r.num < _)
  have hdenLow : (2 : Rat) ^ (Nat.log2 r.den : Int) ≤ r.den := by
    exact_mod_cast Nat.log2_self_le hden
  have hdenHigh : (r.den : Rat) < 2 ^ ((Nat.log2 r.den : Int) + 1) := by
    exact_mod_cast (Nat.lt_log2_self : r.den < _)
  -- the quotient is least with the low numerator over the high denominator, and the other way round
  constructor
  · rw [← Int.zpow_le_iff_le_log Nat.one_lt_two hvalue, Ratio.value, le_div_iff₀ hpos,
      Nat.cast_ofNat]
    calc (2 : Rat) ^ ((Nat.log2 r.num : Int) - Nat.log2 r.den - 1) * r.den
        ≤ 2 ^ ((Nat.log2 r.num : Int) - Nat.log2 r.den - 1) * 2 ^ ((Nat.log2 r.den : Int) + 1) := by
          gcongr
      _ = 2 ^ (Nat.log2 r.num : Int) := by rw [← zpow_add₀ two_ne_zero]; congr 1; ring
      _ ≤ r.num := hnumLow
  · rw [← Int.lt_add_one_iff, ← Int.lt_zpow_iff_log_lt Nat.one_lt_two hvalue, Ratio.value,
      div_lt_iff₀ hpos, Nat.cast_ofNat]
    calc (r.num : Rat) < 2 ^ ((Nat.log2 r.num : Int) + 1) := hnumHigh
      _ = 2 ^ ((Nat.log2 r.num : Int) - Nat.log2 r.den + 1) * 2 ^ (Nat.log2 r.den : Int) := by
          rw [← zpow_add₀ two_ne_zero]; congr 1; ring
      _ ≤ 2 ^ ((Nat.log2 r.num : Int) - Nat.log2 r.den + 1) * r.den := by gcongr

/-- A quotient that is cut off to a natural number stays below a bound that the ratio is below. -/
private theorem div_lt_iff_value_lt {r : Ratio} (hden : r.den ≠ 0) (n : Nat) :
    r.num / r.den < n ↔ r.value < n := by
  have hpos : (0 : Rat) < r.den := Nat.cast_pos.mpr (Nat.pos_of_ne_zero hden)
  rw [Nat.div_lt_iff_lt_mul (Nat.pos_of_ne_zero hden), Ratio.value, div_lt_iff₀ hpos]
  exact_mod_cast Iff.rfl

/-- A double is found by rounding on the grid of the ratio; what is rounded up to a number with 54
    bits is half as many steps on the next grid. -/
theorem nearest_eq {negative : Bool} {r : Ratio} (hnum : r.num ≠ 0) (hden : r.den ≠ 0) {m : Nat}
    (hm : RoundsTo (r.value / 2 ^ quantum r.value) m) :
    nearest negative r =
      if m = 9007199254740992 then
        assemble negative 4503599627370496 (quantum r.value + 1)
      else assemble negative m (quantum r.value) := by
  have hvalue := Ratio.value_pos hnum hden
  obtain ⟨hlow, hhigh⟩ := log_value_bounds hnum hden
  -- the first guess is at most one grid too fine, which the bits of the quotient tell
  have hgrid : ∀ guess : Int,
      guess = max ((Nat.log2 r.num : Int) - (Nat.log2 r.den : Int) - 53) (-1074) →
      (if (r.dropPower 2 guess).num / (r.dropPower 2 guess).den < 9007199254740992 then guess
        else guess + 1) = quantum r.value := by
    rintro guess hguess
    have hfits : (r.dropPower 2 guess).num / (r.dropPower 2 guess).den < 9007199254740992 ↔
        Int.log 2 r.value < 53 + guess := by
      have hbound : ((9007199254740992 : Nat) : Rat) = 2 ^ (53 : Int) := by norm_num
      rw [div_lt_iff_value_lt (Ratio.den_dropPower_ne_zero hden two_ne_zero guess),
        Ratio.value_dropPower, Nat.cast_two, ← Int.lt_zpow_iff_log_lt Nat.one_lt_two hvalue, hbound, div_lt_iff₀ (by positivity),
        ← zpow_add₀ two_ne_zero, Nat.cast_ofNat]
    simp only [hfits, quantum]
    split <;> omega
  have hround : (r.dropPower 2 (quantum r.value)).toNearest = m :=
    (Ratio.roundsTo_dropPower hden (quantum r.value)).unique hm
  simp only [nearest, if_neg hnum, hgrid _ rfl, hround]

/-- Equal ratios have the same double next to them. -/
theorem nearest_congr {negative : Bool} {r s : Ratio} (hr : r.den ≠ 0) (hs : s.den ≠ 0)
    (h : r.value = s.value) : nearest negative r = nearest negative s := by
  by_cases hnum : r.num = 0
  · have hnum' : s.num = 0 := by rwa [← Ratio.value_eq_zero hs, ← h, Ratio.value_eq_zero hr]
    simp only [nearest, if_pos hnum, if_pos hnum']
  · have hnum' : s.num ≠ 0 := by rwa [Ne, ← Ratio.value_eq_zero hs, ← h, Ratio.value_eq_zero hr]
    have hround := Ratio.roundsTo_dropPower hr (quantum r.value)
    rw [nearest_eq hnum hr hround, nearest_eq hnum' hs (h ▸ hround), h]

/-! ## Doubles on their grid -/

theorem mantissa_lt (d : Double) : d.mantissa < 9007199254740992 := by
  have hfraction := d.fraction.isLt
  unfold mantissa
  split <;> omega

theorem mantissa_lt_two_zpow (d : Double) : (d.mantissa : Rat) < 2 ^ (53 : Int) := by
  have hbound : (2 : Rat) ^ (53 : Int) = (9007199254740992 : Nat) := by norm_num
  rw [hbound]
  exact_mod_cast mantissa_lt d

/-- A mantissa without its leading bit occurs on the finest grid only. -/
theorem exponent_of_mantissa_lt {d : Double} (h : d.mantissa < 4503599627370496) :
    d.exponent = -1074 := by
  unfold mantissa at h
  split at h
  · next hbiased => simp [exponent, hbiased]
  · omega

theorem neg_1074_le_exponent (d : Double) : -1074 ≤ d.exponent := by
  unfold exponent
  omega

/-- A double is assembled from its mantissa and its exponent. -/
theorem assemble_mantissa (d : Double) :
    assemble d.negative d.mantissa d.exponent = some d := by
  obtain ⟨negative, biased, fraction⟩ := d
  have hbiased := biased.isLt
  have hfraction := fraction.isLt
  by_cases hzero : biased.val = 0
  · have hbiased : (0 : Fin 2047) = biased := Fin.ext hzero.symm
    simp [assemble, mantissa, hzero, hbiased]
  · have hfull : ¬ 4503599627370496 + fraction.val < 4503599627370496 := by omega
    have hexponent : ((max biased.val 1 : Nat) - 1075 + 1075 : Int).toNat = biased.val := by omega
    simp only [assemble, mantissa, exponent, if_neg hzero, if_neg hfull, hexponent, if_pos hbiased,
      Nat.add_sub_cancel_left, Fin.ofNat_val_eq_self]

/-- What is assembled from a mantissa and an exponent of the format has them. -/
theorem of_assemble {negative : Bool} {m : Nat} {e : Int} {d : Double} (hm : m < 9007199254740992)
    (he : -1074 ≤ e) (hfull : m < 4503599627370496 → e = -1074)
    (h : assemble negative m e = some d) :
    d.negative = negative ∧ d.mantissa = m ∧ d.exponent = e := by
  unfold assemble at h
  split at h
  · next hsmall =>
    obtain rfl := Option.some.inj h
    have hfraction : m % 4503599627370496 = m := Nat.mod_eq_of_lt hsmall
    simp [mantissa, exponent, Fin.ofNat, hfraction, hfull hsmall]
  · next hlarge =>
    simp only at h
    split at h
    · next hbiased =>
      obtain rfl := Option.some.inj h
      have hmod : (e + 1075).toNat % 2047 = (e + 1075).toNat := Nat.mod_eq_of_lt hbiased
      have hfraction : (m - 4503599627370496) % 4503599627370496 = m - 4503599627370496 :=
        Nat.mod_eq_of_lt (by omega)
      refine ⟨rfl, ?_, ?_⟩
      · simp only [mantissa, Fin.ofNat, hmod, hfraction]
        split <;> omega
      · simp only [exponent, Fin.ofNat, hmod]
        omega
    · cases h

theorem eq_zero_of_mantissa_eq_zero {d : Double} (h : d.mantissa = 0) : d = zero d.negative := by
  obtain ⟨negative, biased, fraction⟩ := d
  unfold mantissa at h
  split at h
  · next hbiased =>
    have hb : biased = 0 := Fin.ext hbiased
    have hf : fraction = 0 := Fin.ext h
    rw [hb, hf]
    rfl
  · omega

/-- The grid of a double's magnitude is that of its exponent. -/
theorem quantum_magnitude {d : Double} (h : d.mantissa ≠ 0) :
    quantum d.magnitude.value = d.exponent := by
  have hmantissa : (0 : Rat) < d.mantissa := Nat.cast_pos.mpr (Nat.pos_of_ne_zero h)
  have hvalue : 0 < d.magnitude.value := by
    rw [value_magnitude]
    positivity
  have hlow := neg_1074_le_exponent d
  have hbelow : Int.log 2 d.magnitude.value < 53 + d.exponent := by
    rw [← Int.lt_zpow_iff_log_lt Nat.one_lt_two hvalue, value_magnitude, Nat.cast_ofNat,
      zpow_add₀ two_ne_zero]
    have hbits := mantissa_lt_two_zpow d
    gcongr
  unfold quantum
  -- a mantissa with fewer bits stands on the finest grid, whatever its logarithm is
  by_cases hfull : d.mantissa < 4503599627370496
  · have hfinest := exponent_of_mantissa_lt hfull
    omega
  · have habove : 52 + d.exponent ≤ Int.log 2 d.magnitude.value := by
      rw [← Int.zpow_le_iff_le_log Nat.one_lt_two hvalue, value_magnitude, Nat.cast_ofNat,
        zpow_add₀ two_ne_zero]
      have hle : (2 : Rat) ^ (52 : Int) ≤ d.mantissa := by
        have hbits : 4503599627370496 ≤ d.mantissa := by omega
        have hbound : (2 : Rat) ^ (52 : Int) = (4503599627370496 : Nat) := by norm_num
        rw [hbound]
        exact_mod_cast hbits
      gcongr
    omega

/-- On a grid that is no finer than its own, a double is a number of whole steps. -/
theorem exists_steps_of_le_exponent {d : Double} {e : Int} (h : e ≤ d.exponent) :
    ∃ n : Nat, d.magnitude.value = n * 2 ^ e := by
  obtain ⟨k, hk⟩ := Int.le.dest h
  refine ⟨d.mantissa * 2 ^ k, ?_⟩
  rw [value_magnitude, ← hk, zpow_add₀ two_ne_zero, zpow_natCast]
  push_cast
  ring

/-- Doubles of finer grids lie below the least full mantissa of a coarser one. -/
theorem value_lt_of_exponent_lt {d : Double} {e : Int} (h : d.exponent < e) :
    d.magnitude.value < 2 ^ (52 : Int) * 2 ^ e := by
  have hbits := mantissa_lt_two_zpow d
  calc d.magnitude.value = d.mantissa * 2 ^ d.exponent := value_magnitude d
    _ < 2 ^ (53 : Int) * 2 ^ d.exponent := by gcongr
    _ = 2 ^ (53 + d.exponent) := (zpow_add₀ two_ne_zero _ _).symm
    _ ≤ 2 ^ (52 + e) := zpow_le_zpow_right₀ one_le_two (by omega)
    _ = 2 ^ (52 : Int) * 2 ^ e := zpow_add₀ two_ne_zero _ _

/-- A double is the one next to its own magnitude. -/
theorem nearest_magnitude (d : Double) : nearest d.negative d.magnitude = some d := by
  have hden := den_magnitude_ne_zero d
  by_cases hzero : d.mantissa = 0
  · have hnum : d.magnitude.num = 0 := by
      rw [← Ratio.value_eq_zero hden, value_magnitude, hzero, Nat.cast_zero, zero_mul]
    rw [nearest, if_pos hnum, ← eq_zero_of_mantissa_eq_zero hzero]
  · have hnum : d.magnitude.num ≠ 0 := by
      rw [Ne, ← Ratio.value_eq_zero hden, value_magnitude]
      positivity
    have hround : RoundsTo (d.magnitude.value / 2 ^ quantum d.magnitude.value) d.mantissa := by
      rw [quantum_magnitude hzero, value_magnitude, mul_div_cancel_right₀ _ (by positivity)]
      exact roundsTo_natCast d.mantissa
    rw [nearest_eq hnum hden hround, quantum_magnitude hzero, if_neg (mantissa_lt d).ne,
      assemble_mantissa]

/-! ## No double is closer -/

/-- A rounded number of steps has at most 53 bits or is the next power of two, and it has fewer on
    the finest grid only. -/
theorem RoundsTo.bits {q : Rat} (hq : 0 < q) {m : Nat} (h : RoundsTo (q / 2 ^ quantum q) m) :
    m ≤ 9007199254740992 ∧ (m < 4503599627370496 → quantum q = -1074) := by
  have hdistance := abs_le.mp h.distance_le
  constructor
  · have hlt : q / 2 ^ quantum q < 2 ^ (53 : Int) := by
      rw [div_lt_iff₀ (by positivity), ← zpow_add₀ two_ne_zero, ← Nat.cast_ofNat,
        Int.lt_zpow_iff_log_lt Nat.one_lt_two hq, quantum]
      omega
    have hbound : (2 : Rat) ^ (53 : Int) = (9007199254740992 : Nat) := by norm_num
    rw [hbound] at hlt
    have hm : (m : Rat) < (9007199254740992 : Nat) + 1 := by linarith
    exact Nat.le_of_lt_succ (by exact_mod_cast hm)
  · intro hfew
    by_contra hcoarse
    -- above the finest grid the first of 53 bits is set
    have hle : 2 ^ (52 : Int) ≤ q / 2 ^ quantum q := by
      rw [le_div_iff₀ (by positivity), ← zpow_add₀ two_ne_zero, ← Nat.cast_ofNat,
        Int.zpow_le_iff_le_log Nat.one_lt_two hq]
      unfold quantum at hcoarse ⊢
      omega
    have hbound : (2 : Rat) ^ (52 : Int) = (4503599627370496 : Nat) := by norm_num
    rw [hbound] at hle
    have hm : ((4503599627370496 : Nat) : Rat) < m + 1 := by linarith
    have hm' : 4503599627370496 < m + 1 := by exact_mod_cast hm
    omega

/-- The double that is found has the sign asked for, and its magnitude is the rounded number of
    steps on the grid of the ratio. -/
theorem exists_roundsTo_of_nearest {negative : Bool} {r : Ratio} {d : Double} (hnum : r.num ≠ 0)
    (hden : r.den ≠ 0) (h : nearest negative r = some d) :
    ∃ m, RoundsTo (r.value / 2 ^ quantum r.value) m ∧ d.negative = negative ∧
      d.magnitude.value = m * 2 ^ quantum r.value ∧ (Even m → Even d.mantissa) := by
  have hround := Ratio.roundsTo_dropPower hden (quantum r.value)
  obtain ⟨hbits, hfull⟩ := hround.bits (Ratio.value_pos hnum hden)
  have hfinest : -1074 ≤ quantum r.value := le_max_right _ _
  rw [nearest_eq hnum hden hround] at h
  refine ⟨_, hround, ?_⟩
  generalize (r.dropPower 2 (quantum r.value)).toNearest = m at *
  split at h
  · next hcarry =>
    -- twice as many steps on a grid half as coarse
    subst hcarry
    obtain ⟨hsign, hmantissa, hexponent⟩ := of_assemble (by omega) (by omega) (by omega) h
    refine ⟨hsign, ?_, fun _ => by rw [hmantissa]; decide⟩
    rw [value_magnitude, hmantissa, hexponent, zpow_add₀ two_ne_zero]
    push_cast
    ring
  · next hcarry =>
    obtain ⟨hsign, hmantissa, hexponent⟩ := of_assemble (by omega) hfinest hfull h
    exact ⟨hsign, by rw [value_magnitude, hmantissa, hexponent], fun heven => hmantissa ▸ heven⟩

/-- Distances on a grid are counted in its steps. -/
private theorem abs_sub_mul {q x step : Rat} (hstep : 0 < step) :
    |q - x * step| = |q / step - x| * step := by
  rw [← abs_of_pos hstep, ← abs_mul, abs_of_pos hstep, sub_mul, div_mul_cancel₀ _ hstep.ne']

/-- No double is closer to a ratio than the one found, and when another is as close, the one found
    has an even mantissa. -/
theorem nearest_closest {negative : Bool} {r : Ratio} {d : Double} (hden : r.den ≠ 0)
    (h : nearest negative r = some d) {c : Double}
    (hc : c.magnitude.value ≠ d.magnitude.value) :
    |r.value - d.magnitude.value| < |r.value - c.magnitude.value| ∨
      |r.value - d.magnitude.value| = |r.value - c.magnitude.value| ∧ Even d.mantissa := by
  by_cases hnum : r.num = 0
  · -- zero is its own rounding
    rw [nearest, if_pos hnum, Option.some.injEq] at h
    have hzero : d.magnitude.value = 0 := by simp [← h, value_magnitude, zero, mantissa]
    rw [hzero] at hc ⊢
    left
    rw [(Ratio.value_eq_zero hden).mpr hnum, sub_zero, abs_zero]
    exact abs_pos.mpr (sub_ne_zero.mpr (Ne.symm hc))
  · have hvalue := Ratio.value_pos hnum hden
    obtain ⟨m, hround, -, hmagnitude, heven⟩ := exists_roundsTo_of_nearest hnum hden h
    have hstep : (0 : Rat) < 2 ^ quantum r.value := by positivity
    rw [hmagnitude] at hc ⊢
    rw [abs_sub_mul hstep]
    by_cases hgrid : quantum r.value ≤ c.exponent
    · -- the other double is on the grid, too
      obtain ⟨n, hsteps⟩ := exists_steps_of_le_exponent hgrid
      rw [hsteps] at hc ⊢
      rw [abs_sub_mul hstep]
      have hother : n ≠ m := fun heq => hc (by rw [heq])
      obtain hless | ⟨hsame, hm⟩ := hround.closest hother
      · exact .inl (mul_lt_mul_of_pos_right hless hstep)
      · exact .inr ⟨by rw [hsame], heven hm⟩
    · -- the other double lies below the least full mantissa of the grid, which is on the way to it
      have hbelow := value_lt_of_exponent_lt (Int.not_le.mp hgrid)
      have hleast : 2 ^ (52 : Int) * 2 ^ quantum r.value ≤ r.value := by
        rw [← zpow_add₀ two_ne_zero, ← Nat.cast_ofNat,
          Int.zpow_le_iff_le_log Nat.one_lt_two hvalue]
        have hfinest := neg_1074_le_exponent c
        unfold quantum at hgrid ⊢
        omega
      left
      have hfirst : |r.value / 2 ^ quantum r.value - m| ≤
          |r.value / 2 ^ quantum r.value - (4503599627370496 : Nat)| := by
        by_cases hm : 4503599627370496 = m
        · rw [hm]
        · obtain hless | ⟨hsame, -⟩ := hround.closest hm
          · exact hless.le
          · exact hsame.le
      calc |r.value / 2 ^ quantum r.value - m| * 2 ^ quantum r.value
          ≤ |r.value / 2 ^ quantum r.value - (4503599627370496 : Nat)| * 2 ^ quantum r.value :=
            mul_le_mul_of_nonneg_right hfirst hstep.le
        _ = |r.value - (4503599627370496 : Nat) * 2 ^ quantum r.value| := (abs_sub_mul hstep).symm
        _ = |r.value - 2 ^ (52 : Int) * 2 ^ quantum r.value| := by norm_num
        _ < |r.value - c.magnitude.value| := by
          rw [abs_of_nonneg (by linarith), abs_of_nonneg (by linarith)]
          linarith

end ShellQuery.Double
