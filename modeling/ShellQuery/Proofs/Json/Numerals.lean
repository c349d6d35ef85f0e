import ShellQuery.Proofs.Json.Writing
import ShellQuery.Proofs.Number.Shortest

/-!
# Numbers at face value

The reader of JSON texts rounds in several steps.  `Numeral.faceValue?` says what a written number
means before any reader: without point and power an integer of any size, and otherwise the double
next to the exact decimal number.

The main statements are `exists_numeral_documentText`, every double is written as a number that
means this double, and `exists_numeral_intDigits`, the same for integers.
-/

namespace ShellQuery.Json

/-! ## The meaning of a written number -/

namespace Numeral

/-- The written power of ten, however large. -/
def exponent (n : Numeral) : Int :=
  match n.power with
  | none => 0
  | some (negative, digits) =>
    let e : Int := (Text.natOfDigits? digits).getD 0
    if negative then -e else e

/-- All digits of the number and the power of ten that goes with them. -/
def decimal (n : Numeral) : Decimal :=
  let fraction := n.fraction.getD []
  ⟨(Text.natOfDigits? (n.whole ++ fraction)).getD 0, n.exponent - fraction.length⟩

/-- The value of a number: an integer, or the double next to it, if there is one. -/
def faceValue? (n : Numeral) : Option Json :=
  if n.isInteger then
    some (int (if n.negative then -(n.decimal.digits : Int) else n.decimal.digits))
  else (Double.nearest n.negative n.decimal.ratio).map float

end Numeral

/-! ## Integers -/

theorem faceValue?_natDigits (negative : Bool) (n : Nat) :
    (Numeral.mk negative (Text.natDigits n) none none).faceValue? =
      some (int (if negative then -(n : Int) else n)) := by
  have hdigits : (Numeral.mk negative (Text.natDigits n) none none).decimal.digits = n := by
    simp [Numeral.decimal, Text.natOfDigits?_natDigits]
  rw [Numeral.faceValue?, hdigits]
  rfl

theorem exists_numeral_intDigits (i : Int) :
    ∃ n, NumeralText n (Text.intDigits i) ∧ n.faceValue? = some (int i) := by
  have hwhole := isWhole_natDigits i.natAbs
  unfold Text.intDigits
  split
  · next hneg =>
    have htext := NumeralText.negative hwhole .absent .absent
    rw [List.append_nil, List.append_nil] at htext
    have hi : -(i.natAbs : Int) = i := by omega
    exact ⟨_, htext, by rw [faceValue?_natDigits, if_pos rfl, hi]⟩
  · next hneg =>
    have htext := NumeralText.positive hwhole .absent .absent
    rw [List.append_nil, List.append_nil] at htext
    have hi : (i.natAbs : Int) = i := by omega
    exact ⟨_, htext, by rw [faceValue?_natDigits, if_neg Bool.false_ne_true, hi]⟩

/-! ## Decimal numbers -/

/-- The text, which has no sign, writes the value of the decimal with a point or a power. -/
inductive WritesDecimal : List Char → Decimal → Prop where
  | intro {whole fraction power ft pt} {c : Decimal} (hwhole : IsWhole whole)
      (hfraction : FractionText fraction ft) (hpower : PowerText power pt)
      (hfloat : ∀ negative, (Numeral.mk negative whole fraction power).isInteger = false)
      (hvalue : ∀ negative,
        (Numeral.mk negative whole fraction power).decimal.value = c.value) :
      WritesDecimal (whole ++ (ft ++ pt)) c

theorem accumulate_zeros_behind (n k : Nat) :
    Text.accumulate 10 Text.digitValue? n (List.replicate k '0') = some (n * 10 ^ k) := by
  induction k generalizing n with
  | zero => simp [Text.accumulate]
  | succ k ih =>
    have hzero : Text.digitValue? '0' = some 0 := rfl
    rw [List.replicate_succ, Text.accumulate, hzero]
    simp only [ih, Nat.add_zero, Nat.pow_succ]
    congr 1
    ring

theorem natOfDigits?_natDigits_zeros (n k : Nat) :
    Text.natOfDigits? (Text.natDigits n ++ List.replicate k '0') = some (n * 10 ^ k) := by
  have hne : Text.natDigits n ++ List.replicate k '0' ≠ [] :=
    List.append_ne_nil_of_left_ne_nil (Text.natDigits_ne_nil n) _
  rw [Text.natOfDigits?_eq_accumulate hne, Text.accumulate_append, Text.accumulate_natDigits,
    Option.bind_some, accumulate_zeros_behind]

theorem natOfDigits?_zeros_natDigits (k n : Nat) :
    Text.natOfDigits? (List.replicate k '0' ++ Text.natDigits n) = some n := by
  have hne : List.replicate k '0' ++ Text.natDigits n ≠ [] :=
    List.append_ne_nil_of_right_ne_nil _ (Text.natDigits_ne_nil n)
  rw [Text.natOfDigits?_eq_accumulate hne, Text.accumulate_zeros, Text.accumulate_natDigits]

theorem isDigit_of_mem_zeros {k : Nat} {d : Char} (h : d ∈ List.replicate k '0') :
    Text.isDigit d = true := by
  rw [(List.mem_replicate.mp h).2]
  rfl

variable {c : Decimal}

/-- Zeros fill up the places before the point, and one stands behind it.  Zero itself has no such
    places; any other number starts with another digit. -/
private theorem writesDecimal_zeros_behind (hzero : c.digits = 0 → c.exponent = 0) {k : Nat}
    (hk : c.exponent = k) :
    WritesDecimal (Text.natDigits c.digits ++ List.replicate k '0' ++ ['.', '0']) c := by
  -- zeros behind a zero would not be a whole number, so that there are none
  have hwhole : IsWhole (Text.natDigits c.digits ++ List.replicate k '0') := by
    by_cases hdigits : c.digits = 0
    · have hexponent := hzero hdigits
      have hnone : k = 0 := by omega
      rw [hdigits, hnone]
      exact .inl rfl
    · have hne := Text.natDigits_ne_nil c.digits
      refine .inr ⟨⟨List.append_ne_nil_of_left_ne_nil hne _, fun d hd => ?_⟩, ?_⟩
      · obtain hd | hd := List.mem_append.mp hd
        · exact Text.isDigit_of_mem_natDigits hd
        · exact isDigit_of_mem_zeros hd
      · rw [List.head?_append_of_ne_nil _ hne]
        exact Text.head?_natDigits_ne_zero hdigits
  have hfraction : IsDigits (List.replicate 1 '0') :=
    ⟨List.cons_ne_nil _ _, fun _ => isDigit_of_mem_zeros⟩
  have hvalue : Text.natOfDigits? (Text.natDigits c.digits ++ List.replicate k '0' ++
      List.replicate 1 '0') = some (c.digits * 10 ^ (k + 1)) := by
    rw [List.append_assoc, List.replicate_append_replicate, natOfDigits?_natDigits_zeros]
  refine .intro hwhole (.present hfraction) .absent (fun _ => rfl) fun negative => ?_
  have hpoint : (10 : Rat) ^ (0 - ((1 : Nat) : Int)) = 1 / 10 := by norm_num
  simp only [Numeral.decimal, Numeral.exponent, Option.getD_some, hvalue, Decimal.value, hk,
    List.length_replicate]
  rw [hpoint, zpow_natCast]
  push_cast
  ring

/-- The point stands among the digits, which are not those of zero. -/
private theorem writesDecimal_point_inside {places : Nat} (hplaces : c.exponent = -(places : Int))
    (hpos : 0 < places) (hne : c.digits ≠ 0)
    (hinside : places < (Text.natDigits c.digits).length) :
    WritesDecimal ((Text.natDigits c.digits).take ((Text.natDigits c.digits).length - places) ++
      '.' :: (Text.natDigits c.digits).drop ((Text.natDigits c.digits).length - places)) c := by
  have hdigits := fun d => @Text.isDigit_of_mem_natDigits c.digits d
  have hhead := Text.head?_natDigits_ne_zero hne
  have hnumber := Text.natOfDigits?_natDigits c.digits
  -- only these facts about the digits matter from here on
  generalize Text.natDigits c.digits = digits at *
  have hbefore : IsWhole (digits.take (digits.length - places)) := by
    refine .inr ⟨⟨?_, fun d hd => hdigits d (List.mem_of_mem_take hd)⟩, ?_⟩
    · intro hnil
      have hlength := congrArg List.length hnil
      rw [List.length_take, List.length_nil] at hlength
      omega
    · rwa [List.head?_take, if_neg (by omega)]
  have hbehind : IsDigits (digits.drop (digits.length - places)) := by
    refine ⟨?_, fun d hd => hdigits d (List.mem_of_mem_drop hd)⟩
    rw [Ne, List.drop_eq_nil_iff]
    omega
  have htext := WritesDecimal.intro (c := c) hbefore (.present hbehind) .absent (fun _ => rfl)
    fun negative => by
      simp only [Numeral.decimal, Numeral.exponent, Option.getD_some, List.take_append_drop,
        hnumber, Decimal.value, hplaces, List.length_drop]
      congr 2
      omega
  rwa [List.append_nil] at htext

/-- The point stands in front of the digits, and zeros fill up the places. -/
private theorem writesDecimal_zeros_before {places : Nat} (hplaces : c.exponent = -(places : Int))
    (hbefore : (Text.natDigits c.digits).length ≤ places) :
    WritesDecimal ('0' :: '.' :: (List.replicate (places - (Text.natDigits c.digits).length) '0' ++
      Text.natDigits c.digits)) c := by
  have hbehind : IsDigits (List.replicate (places - (Text.natDigits c.digits).length) '0' ++
      Text.natDigits c.digits) := by
    refine ⟨List.append_ne_nil_of_right_ne_nil _ (Text.natDigits_ne_nil _), fun d hd => ?_⟩
    obtain hd | hd := List.mem_append.mp hd
    · exact isDigit_of_mem_zeros hd
    · exact Text.isDigit_of_mem_natDigits hd
  have hvalue := natOfDigits?_zeros_natDigits (places - (Text.natDigits c.digits).length + 1)
    c.digits
  rw [List.replicate_succ, List.cons_append] at hvalue
  have htext := WritesDecimal.intro (c := c) (.inl rfl) (.present hbehind) .absent (fun _ => rfl)
    fun negative => by
      simp only [Numeral.decimal, Numeral.exponent, Option.getD_some, List.singleton_append,
        hvalue, Decimal.value, hplaces, List.length_append, List.length_replicate]
      congr 2
      omega
  rwa [List.append_nil] at htext

theorem writesDecimal_positional (hzero : c.digits = 0 → c.exponent = 0) :
    WritesDecimal c.positional c := by
  unfold Decimal.positional
  simp only
  split
  · next hexponent =>
    exact writesDecimal_zeros_behind hzero (Int.toNat_of_nonneg hexponent).symm
  · next hexponent =>
    have hplaces : c.exponent = -((-c.exponent).toNat : Int) := by omega
    split
    · next hinside =>
      have hne : c.digits ≠ 0 := fun hdigits => hexponent (hzero hdigits).ge
      exact writesDecimal_point_inside hplaces (by omega) hne hinside
    · next hbefore => exact writesDecimal_zeros_before hplaces (Nat.le_of_not_lt hbefore)

/-- A power of ten behind its mark and its sign. -/
private theorem exists_powerText (e : Int) :
    ∃ power, PowerText (some power)
        ('e' :: (if e < 0 then '-' else '+') :: Text.natDigits e.natAbs) ∧
      ∀ negative whole fraction,
        (Numeral.mk negative whole fraction (some power)).exponent = e := by
  have hdigits : IsDigits (Text.natDigits e.natAbs) :=
    ⟨Text.natDigits_ne_nil _, fun _ => Text.isDigit_of_mem_natDigits⟩
  split
  · next hneg =>
    refine ⟨_, .minus (.inl rfl) hdigits, fun _ _ _ => ?_⟩
    simp only [Numeral.exponent, Text.natOfDigits?_natDigits, Option.getD_some, if_true]
    omega
  · next hneg =>
    refine ⟨_, .plus (.inl rfl) hdigits, fun _ _ _ => ?_⟩
    simp only [Numeral.exponent, Text.natOfDigits?_natDigits, Option.getD_some]
    simp
    omega

theorem writesDecimal_scientific (hne : c.digits ≠ 0) : WritesDecimal c.scientific c := by
  have hdigits := fun d => @Text.isDigit_of_mem_natDigits c.digits d
  have hhead := Text.head?_natDigits_ne_zero hne
  have hvalue := Text.natOfDigits?_natDigits c.digits
  obtain ⟨power, hpower, hexponent⟩ := exists_powerText c.leadingExponent
  have hleading : c.leadingExponent = c.exponent + (Text.natDigits c.digits).length - 1 := rfl
  unfold Decimal.scientific
  simp only
  -- only these facts about the digits matter from here on
  generalize Text.natDigits c.digits = digits at *
  split
  · cases hvalue
  · next first =>
    have hwhole : IsWhole [first] := .inr ⟨⟨List.cons_ne_nil _ _, hdigits⟩, hhead⟩
    refine .intro hwhole .absent hpower (fun _ => rfl) fun negative => ?_
    have hsame : c.leadingExponent = c.exponent := by simpa using hleading
    simp [Numeral.decimal, hexponent, hvalue, Decimal.value, hsame]
  · next first rest hmore =>
    have hwhole : IsWhole [first] := by
      refine .inr ⟨⟨List.cons_ne_nil _ _, fun d hd => hdigits d ?_⟩, hhead⟩
      rw [List.mem_singleton.mp hd]
      exact List.mem_cons_self
    have hrest : IsDigits rest := by
      refine ⟨?_, fun d hd => hdigits d (List.mem_cons_of_mem _ hd)⟩
      rintro rfl
      exact hmore rfl
    refine .intro hwhole (.present hrest) hpower (fun _ => rfl) fun negative => ?_
    have hplaces : c.leadingExponent - rest.length = c.exponent := by
      rw [hleading, List.length_cons]
      omega
    simp [Numeral.decimal, hexponent, hvalue, Decimal.value, hplaces]

/-! ## Doubles -/

/-- A decimal that a double is next to, with the sign in front, is a number that means this
    double. -/
theorem WritesDecimal.exists_numeral {s : List Char} (h : WritesDecimal s c) {d : Double}
    (hd : Double.nearest d.negative c.ratio = some d) :
    ∃ n, NumeralText n (d.withSign s) ∧ n.faceValue? = some (float d) := by
  obtain ⟨hwhole, hfraction, hpower, hfloat, hvalue⟩ := h
  have hexact : ∀ negative whole fraction power,
      (Numeral.mk negative whole fraction power).isInteger = false →
      (Numeral.mk negative whole fraction power).decimal.value = c.value →
      negative = d.negative →
      (Numeral.mk negative whole fraction power).faceValue? = some (float d) := by
    rintro negative whole fraction power hfloat hvalue rfl
    rw [Numeral.faceValue?, hfloat, if_neg Bool.false_ne_true,
      Decimal.nearest_ratio_congr hvalue, hd]
    rfl
  unfold Double.withSign
  split
  · next hneg =>
    exact ⟨_, .negative hwhole hfraction hpower, hexact _ _ _ _ (hfloat _) (hvalue _) hneg.symm⟩
  · next hpos =>
    have hsign : false = d.negative := (Bool.eq_false_of_not_eq_true hpos).symm
    exact ⟨_, .positive hwhole hfraction hpower, hexact _ _ _ _ (hfloat _) (hvalue _) hsign⟩

/-- The text of a double in a document is a number that means this double. -/
theorem exists_numeral_documentText (d : Double) :
    ∃ n, NumeralText n d.documentText ∧ n.faceValue? = some (float d) := by
  have hwrites : WritesDecimal
      (if -5 ≤ d.shortest.leadingExponent ∧ d.shortest.leadingExponent ≤ 15 then
        d.shortest.positional
      else d.shortest.scientific) d.shortest := by
    split
    · refine writesDecimal_positional fun hzero => ?_
      rw [Double.shortest_of_digits_eq_zero hzero]
    · next hleading =>
      refine writesDecimal_scientific fun hzero => hleading ?_
      rw [Double.shortest_of_digits_eq_zero hzero]
      decide
  exact hwrites.exists_numeral (Double.nearest_shortest d)

end ShellQuery.Json
