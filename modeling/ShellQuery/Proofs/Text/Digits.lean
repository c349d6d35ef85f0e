import Mathlib.Data.Nat.Digits.Defs
import Mathlib.Tactic.IntervalCases
import ShellQuery.Text.Integer

/-!
# Digits that are written and read

A number is written without zeros in front, filled up to a width where a width is given, and read
back from either text: `natOfDigits?_natDigits`, `readSigned64_intDigits` and
`accumulate_paddedDigits`.

`IsDecimal` says without a reader which number a text writes.  The texts that are read are those
that write a number within the bounds: `readSigned64_eq_some_iff` and `readUnsigned64_eq_some_iff`.
-/

namespace ShellQuery.Text

/-! ## Single digits -/

theorem digitValue?_digitChar {d : Nat} (h : d < 10) : digitValue? (Nat.digitChar d) = some d := by
  interval_cases d <;> rfl

theorem digitValue?_lt {c : Char} {d : Nat} (h : digitValue? c = some d) : d < 10 := by
  unfold digitValue? at h
  split at h
  · next hrange =>
    cases h
    have hlast : c.toNat ≤ '9'.toNat := hrange.2
    have hnine : '9'.toNat = '0'.toNat + 9 := rfl
    omega
  · cases h

theorem hexValue?_lt {c : Char} {d : Nat} (h : hexValue? c = some d) : d < 16 := by
  have hlast : '0'.toNat + 9 = '9'.toNat ∧ 'a'.toNat + 5 = 'f'.toNat ∧ 'A'.toNat + 5 = 'F'.toNat :=
    ⟨rfl, rfl, rfl⟩
  -- each of the three ranges starts at a value of its own
  unfold hexValue? at h
  split at h
  · next hrange =>
    have hle : c.toNat ≤ '9'.toNat := hrange.2
    cases h
    omega
  · split at h
    · next hrange =>
      have hle : c.toNat ≤ 'f'.toNat := hrange.2
      cases h
      omega
    · split at h
      · next hrange =>
        have hle : c.toNat ≤ 'F'.toNat := hrange.2
        cases h
        omega
      · cases h

theorem mem_of_isDigit {c : Char} (h : isDigit c = true) : c ∈ "0123456789".toList := by
  unfold isDigit digitValue? at h
  split at h
  · next hrange =>
    have hfirst : 48 ≤ c.toNat := hrange.1
    have hlast : c.toNat ≤ 57 := hrange.2
    -- ten numbers are left for the character
    rw [← Char.ofNat_toNat c]
    generalize c.toNat = n at hfirst hlast
    interval_cases n <;> decide
  · cases h

/-- A byte is read back from its two digits. -/
theorem natOfHex?_hexByte {n : Nat} (h : n < 256) : natOfHex? (hexByte n) = some n := by
  have hdigit : ∀ d < 16, hexValue? (Nat.digitChar d) = some d := by decide
  have hhigh : hexValue? (hexDigit (n / 16)) = some (n / 16) := by
    rw [hexDigit, Nat.mod_eq_of_lt (by omega)]
    exact hdigit _ (by omega)
  have hlow : hexValue? (hexDigit n) = some (n % 16) := hdigit _ (Nat.mod_lt n (by omega))
  simp only [hexByte, natOfHex?, accumulate, hhigh, hlow]
  rw [Nat.zero_mul, Nat.zero_add, Nat.div_add_mod']

/-! ## Runs of digits -/

section

variable {base : Nat} {value? : Char → Option Nat}

/-- The digits of two texts are taken up one after the other. -/
theorem accumulate_append (acc : Nat) (s t : List Char) :
    accumulate base value? acc (s ++ t) =
      (accumulate base value? acc s).bind fun n => accumulate base value? n t := by
  induction s generalizing acc with
  | nil => rfl
  | cons c r ih =>
    rw [List.cons_append, accumulate, accumulate]
    split
    · exact ih _
    · rfl

/-- Only digits are taken up. -/
theorem value?_isSome_of_accumulate {acc n : Nat} {s : List Char}
    (h : accumulate base value? acc s = some n) : ∀ c ∈ s, (value? c).isSome = true := by
  induction s generalizing acc with
  | nil => exact fun _ hc => absurd hc List.not_mem_nil
  | cons c r ih =>
    rw [accumulate] at h
    split at h
    · next d hd => exact List.forall_mem_cons.mpr ⟨by rw [hd]; rfl, ih h⟩
    · cases h

/-- So many digits write a number below that power of the base. -/
theorem lt_of_accumulate (hdigit : ∀ c d, value? c = some d → d < base) {acc n : Nat} {s : List Char}
    (h : accumulate base value? acc s = some n) : n < (acc + 1) * base ^ s.length := by
  induction s generalizing acc with
  | nil =>
    obtain rfl := Option.some.inj h
    rw [List.length_nil, Nat.pow_zero, Nat.mul_one]
    exact Nat.lt_succ_self _
  | cons c r ih =>
    rw [accumulate] at h
    split at h
    · next d hd =>
      -- a digit is less than the base, so it does not reach the next multiple
      have hd := hdigit c d hd
      calc n < (acc * base + d + 1) * base ^ r.length := ih h
        _ ≤ ((acc + 1) * base) * base ^ r.length :=
          Nat.mul_le_mul_right _ (by rw [Nat.add_mul]; omega)
        _ = (acc + 1) * base ^ (c :: r).length := by
          rw [List.length_cons, Nat.pow_succ, Nat.mul_assoc, Nat.mul_comm base]
    · cases h

end

/-- A run of decimal digits writes a number with at most as many digits. -/
theorem lt_of_natOfDigits? {s : List Char} {n : Nat} (h : natOfDigits? s = some n) :
    n < 10 ^ s.length := by
  unfold natOfDigits? at h
  split at h
  · cases h
  · simpa using lt_of_accumulate (fun _ _ => digitValue?_lt) h

/-- A run of hexadecimal digits likewise. -/
theorem lt_of_natOfHex? {s : List Char} {n : Nat} (h : natOfHex? s = some n) :
    n < 16 ^ s.length := by
  unfold natOfHex? at h
  split at h
  · cases h
  · simpa using lt_of_accumulate (fun _ _ => hexValue?_lt) h

theorem accumulate_zeros (k : Nat) (s : List Char) :
    accumulate 10 digitValue? 0 (List.replicate k '0' ++ s) = accumulate 10 digitValue? 0 s := by
  induction k with
  | zero => rfl
  | succ k ih => exact ih

/-! ## Natural numbers -/

theorem natDigits_ne_nil (n : Nat) : natDigits n ≠ [] :=
  Nat.toDigits_ne_nil

theorem natDigits_eq (n : Nat) :
    natDigits n =
      if n < 10 then [Nat.digitChar n] else natDigits (n / 10) ++ [Nat.digitChar (n % 10)] :=
  Nat.toDigits_eq_if (by decide)

/-- The digits of a number write it. -/
theorem accumulate_natDigits (n : Nat) : accumulate 10 digitValue? 0 (natDigits n) = some n := by
  -- on the number, which loses its last digit
  induction n using Nat.strongRecOn with
  | _ n ih =>
    rw [natDigits_eq]
    split
    · next hlt => simp [accumulate, digitValue?_digitChar hlt]
    · next hlt =>
      have hdigit : n % 10 < 10 := Nat.mod_lt n (by decide)
      rw [accumulate_append, ih (n / 10) (by omega), Option.bind_some, accumulate,
        digitValue?_digitChar hdigit]
      show some (n / 10 * 10 + n % 10) = some n
      rw [Nat.div_add_mod']

theorem natOfDigits?_eq_accumulate {s : List Char} (h : s ≠ []) :
    natOfDigits? s = accumulate 10 digitValue? 0 s := by
  cases s with
  | nil => exact absurd rfl h
  | cons c r => rfl

theorem accumulate_of_natOfDigits? {s : List Char} {n : Nat} (h : natOfDigits? s = some n) :
    s ≠ [] ∧ accumulate 10 digitValue? 0 s = some n := by
  cases s with
  | nil => cases h
  | cons c r => exact ⟨List.cons_ne_nil c r, h⟩

theorem natOfDigits?_natDigits (n : Nat) : natOfDigits? (natDigits n) = some n := by
  rw [natOfDigits?_eq_accumulate (natDigits_ne_nil n), accumulate_natDigits]

theorem isDigit_of_mem_natDigits {n : Nat} {c : Char} (h : c ∈ natDigits n) : isDigit c = true :=
  value?_isSome_of_accumulate (accumulate_natDigits n) c h

/-- A number is written without zeros in front, apart from zero itself. -/
theorem head?_natDigits_ne_zero {n : Nat} (h : n ≠ 0) : (natDigits n).head? ≠ some '0' := by
  induction n using Nat.strongRecOn with
  | _ n ih =>
    rw [natDigits_eq]
    split
    · next hlt => interval_cases n <;> first | exact absurd rfl h | decide
    · next hlt =>
      -- the first digit is that of the number without its last digit
      obtain ⟨c, r, hdigits⟩ := List.exists_cons_of_ne_nil (natDigits_ne_nil (n / 10))
      have hhead := ih (n / 10) (by omega) (by omega)
      rwa [hdigits] at hhead ⊢

theorem length_natDigits_le {n k : Nat} (hk : 0 < k) (h : n < 10 ^ k) :
    (natDigits n).length ≤ k :=
  Nat.toDigits_length 10 n k hk h

/-! ## Texts of a fixed width -/

theorem accumulate_paddedDigits (width n : Nat) :
    accumulate 10 digitValue? 0 (paddedDigits width n) = some n := by
  rw [paddedDigits, accumulate_zeros, accumulate_natDigits]

theorem length_paddedDigits {width n : Nat} (hwidth : 0 < width) (h : n < 10 ^ width) :
    (paddedDigits width n).length = width := by
  have hlength := length_natDigits_le hwidth h
  rw [paddedDigits, List.length_append, List.length_replicate]
  omega

/-! ## Decimal notation -/

theorem eq_digitChar_of_digitValue? {c : Char} {d : Nat} (h : digitValue? c = some d) :
    c = Nat.digitChar d := by
  have hdigits : "0123456789".toList.all
      (fun c => c = Nat.digitChar ((digitValue? c).getD 0)) = true := by decide
  have hdigit : isDigit c = true := by
    rw [isDigit, h]
    rfl
  have hc := of_decide_eq_true (List.all_eq_true.mp hdigits c (mem_of_isDigit hdigit))
  rwa [h] at hc

/-- Each digit counts ten times as much as the one behind it. -/
theorem accumulate_digits (acc : Nat) {digits : List Nat} (h : ∀ d ∈ digits, d < 10) :
    accumulate 10 digitValue? acc (digits.map Nat.digitChar) =
      some (acc * 10 ^ digits.length + Nat.ofDigits 10 digits.reverse) := by
  induction digits generalizing acc with
  | nil => simp [accumulate]
  | cons d rest ih =>
    obtain ⟨hd, hrest⟩ := List.forall_mem_cons.mp h
    simp only [List.map_cons, accumulate, digitValue?_digitChar hd, ih _ hrest, List.reverse_cons,
      Nat.ofDigits_append, Nat.ofDigits_singleton, List.length_reverse, List.length_cons,
      Nat.pow_succ]
    congr 1
    ring

/-- Only digits are accumulated. -/
theorem exists_digits_of_accumulate {acc n : Nat} {s : List Char}
    (h : accumulate 10 digitValue? acc s = some n) :
    ∃ digits : List Nat, (∀ d ∈ digits, d < 10) ∧ s = digits.map Nat.digitChar := by
  induction s generalizing acc with
  | nil => exact ⟨[], nofun, rfl⟩
  | cons c r ih =>
    rw [accumulate] at h
    split at h
    · next d hd =>
      obtain ⟨digits, hdigits, rfl⟩ := ih h
      refine ⟨d :: digits, List.forall_mem_cons.mpr ⟨digitValue?_lt hd, hdigits⟩, ?_⟩
      rw [List.map_cons, ← eq_digitChar_of_digitValue? hd]
    · cases h

/-- The decimal notation of a natural number, with any number of zeros in front. -/
def IsDecimal (s : List Char) (n : Nat) : Prop :=
  ∃ digits : List Nat, digits ≠ [] ∧ (∀ d ∈ digits, d < 10) ∧ s = digits.map Nat.digitChar ∧
    n = Nat.ofDigits 10 digits.reverse

theorem natOfDigits?_eq_some_iff {s : List Char} {n : Nat} :
    natOfDigits? s = some n ↔ IsDecimal s n := by
  constructor
  · intro h
    obtain ⟨hs, h⟩ := accumulate_of_natOfDigits? h
    obtain ⟨digits, hdigits, rfl⟩ := exists_digits_of_accumulate h
    rw [accumulate_digits 0 hdigits, Nat.zero_mul, Nat.zero_add] at h
    exact ⟨digits, fun hnil => hs (by rw [hnil]; rfl), hdigits, rfl, (Option.some.inj h).symm⟩
  · rintro ⟨digits, hne, hdigits, rfl, rfl⟩
    have hs : digits.map Nat.digitChar ≠ [] := fun hnil => hne (List.map_eq_nil_iff.mp hnil)
    rw [natOfDigits?_eq_accumulate hs, accumulate_digits 0 hdigits, Nat.zero_mul, Nat.zero_add]

theorem isDigit_of_natOfDigits? {s : List Char} {n : Nat} (h : natOfDigits? s = some n) :
    ∀ c ∈ s, isDigit c = true :=
  value?_isSome_of_accumulate (accumulate_of_natOfDigits? h).2

/-! ## Integers -/

/-- A text that starts with a digit has no sign. -/
theorem readInteger_of_natOfDigits? {s : List Char} {n : Nat} (h : natOfDigits? s = some n) :
    readInteger s = some (n : Int) := by
  have hdigit := isDigit_of_natOfDigits? h
  unfold readInteger
  -- neither sign is a digit
  split
  · exact absurd (hdigit _ List.mem_cons_self) (by decide)
  · exact absurd (hdigit _ List.mem_cons_self) (by decide)
  · rw [h]
    rfl

theorem readNatural_of_natOfDigits? {s : List Char} {n : Nat} (h : natOfDigits? s = some n) :
    readNatural s = some n := by
  have hdigit := isDigit_of_natOfDigits? h
  unfold readNatural
  split
  · exact absurd (hdigit _ List.mem_cons_self) (by decide)
  · exact h

/-- The notation of an integer: digits, behind a sign or without one. -/
inductive IsInteger : List Char → Int → Prop where
  | bare {s : List Char} {n : Nat} (h : IsDecimal s n) : IsInteger s n
  | plus {s : List Char} {n : Nat} (h : IsDecimal s n) : IsInteger ('+' :: s) n
  | minus {s : List Char} {n : Nat} (h : IsDecimal s n) : IsInteger ('-' :: s) (-n)

/-- The notation of a natural number: the sign `+` may stand in front of it. -/
inductive IsNatural : List Char → Nat → Prop where
  | bare {s : List Char} {n : Nat} (h : IsDecimal s n) : IsNatural s n
  | plus {s : List Char} {n : Nat} (h : IsDecimal s n) : IsNatural ('+' :: s) n

/-- A number that is read becomes an integer before its sign is taken. -/
private theorem exists_of_map {o : Option Nat} {f : Int → Int} {i : Int}
    (h : (do let n ← o; pure (n : Int)).map f = some i) : ∃ n : Nat, o = some n ∧ f n = i := by
  cases o with
  | none => cases h
  | some n => exact ⟨n, rfl, Option.some.inj h⟩

theorem readInteger_eq_some_iff {s : List Char} {i : Int} :
    readInteger s = some i ↔ IsInteger s i := by
  constructor
  · intro h
    unfold readInteger at h
    split at h
    · next r =>
      obtain ⟨n, hn, rfl⟩ := exists_of_map h
      exact .minus (natOfDigits?_eq_some_iff.mp hn)
    · next r =>
      obtain ⟨n, hn, rfl⟩ := exists_of_map h
      exact .plus (natOfDigits?_eq_some_iff.mp hn)
    · obtain ⟨n, hn, rfl⟩ := exists_of_map h
      exact .bare (natOfDigits?_eq_some_iff.mp hn)
  · intro h
    cases h with
    | bare h => exact readInteger_of_natOfDigits? (natOfDigits?_eq_some_iff.mpr h)
    | plus h => rw [readInteger, natOfDigits?_eq_some_iff.mpr h]; rfl
    | minus h => rw [readInteger, natOfDigits?_eq_some_iff.mpr h]; rfl

theorem readNatural_eq_some_iff {s : List Char} {n : Nat} :
    readNatural s = some n ↔ IsNatural s n := by
  constructor
  · intro h
    unfold readNatural at h
    split at h
    · exact .plus (natOfDigits?_eq_some_iff.mp h)
    · exact .bare (natOfDigits?_eq_some_iff.mp h)
  · intro h
    cases h with
    | bare h => exact readNatural_of_natOfDigits? (natOfDigits?_eq_some_iff.mpr h)
    | plus h => exact natOfDigits?_eq_some_iff.mpr h

theorem fitsSigned64_iff {i : Int} : fitsSigned64 i = true ↔ -2 ^ 63 ≤ i ∧ i < 2 ^ 63 := by
  rw [fitsSigned64, Bool.and_eq_true, decide_eq_true_eq, decide_eq_true_eq]
  exact and_congr_right fun _ => Int.lt_add_one_iff.symm

theorem readSigned64_eq_some_iff {s : List Char} {i : Int} :
    readSigned64 s = some i ↔ IsInteger s i ∧ -2 ^ 63 ≤ i ∧ i < 2 ^ 63 := by
  rw [readSigned64, Option.filter_eq_some_iff, readInteger_eq_some_iff, fitsSigned64_iff]

theorem readUnsigned64_eq_some_iff {s : List Char} {n : Nat} :
    readUnsigned64 s = some n ↔ IsNatural s n ∧ n < 2 ^ 64 := by
  rw [readUnsigned64, Option.filter_eq_some_iff, readNatural_eq_some_iff, decide_eq_true_eq]
  rfl

/-- The sign of a positive integer may be written. -/
theorem readInteger_plus (n : Nat) : readInteger ('+' :: natDigits n) = some (n : Int) := by
  rw [readInteger, natOfDigits?_natDigits]
  rfl

/-- An integer is read back from its digits. -/
theorem readInteger_intDigits (i : Int) : readInteger (intDigits i) = some i := by
  unfold intDigits
  split
  · next hneg =>
    rw [readInteger, natOfDigits?_natDigits]
    have habs : -(i.natAbs : Int) = i := by omega
    exact congrArg some habs
  · next hneg =>
    rw [readInteger_of_natOfDigits? (natOfDigits?_natDigits _)]
    exact congrArg some (by omega)

theorem readSigned64_intDigits {i : Int} (h : fitsSigned64 i = true) :
    readSigned64 (intDigits i) = some i := by
  rw [readSigned64, readInteger_intDigits, Option.filter_some, if_pos h]

theorem readSigned16_intDigits {i : Int} (h : fitsSigned16 i = true) :
    readSigned16 (intDigits i) = some i := by
  rw [readSigned16, readInteger_intDigits, Option.filter_some, if_pos h]

end ShellQuery.Text
