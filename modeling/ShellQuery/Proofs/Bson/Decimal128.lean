import ShellQuery.Bson.Decimal128
import ShellQuery.Proofs.Text.Digits
import ShellQuery.Proofs.Text.Names

/-!
# Decimal numbers that are written and read

The text of a finite number has digits with an optional point among them and an optional power of
ten behind, and `Parts.Denote` says which number such parts mean.  Reading finds the parts again.
It never rounds, so a number that has been read is within the limits of the format and its text
gives the same number.  Only what is no number loses its sign and its kind.
-/

namespace ShellQuery.Decimal128

/-! ## Stored numbers -/

/-- The number is within the limits of the format. -/
def IsStored : Decimal128 → Prop
  | finite _ coefficient e =>
    coefficient < 10 ^ maxDigits ∧ minExponent ≤ e ∧ e ≤ maxExponent
  | _ => True

/-- All that is no number has one text and becomes the same value. -/
def plainNan : Decimal128 → Decimal128
  | nan _ _ => nan false false
  | d => d

/-! ## The parts of a text -/

/-- The digits around the point and the digits behind the mark of a power. -/
structure Parts where
  whole : List Char
  fraction : Option (List Char)
  power : Option (List Char)

namespace Parts

/-- The digits on both sides of the point. -/
def digits (p : Parts) : List Char :=
  p.whole ++ p.fraction.getD []

/-- The digits with the point. -/
def number (p : Parts) : List Char :=
  p.whole ++ p.fraction.elim [] ('.' :: ·)

/-- The text of the parts with the given mark in front of the power. -/
def text (p : Parts) (mark : Char) : List Char :=
  p.number ++ p.power.elim [] (mark :: ·)

/-- The parts are those of the number with the given coefficient and exponent. -/
structure Denote (p : Parts) (coefficient : Nat) (e : Int) : Prop where
  whole : p.whole ≠ []
  isDigit : ∀ c ∈ p.digits, Text.isDigit c = true
  coefficient : dropLeadingZeros p.digits = Text.natDigits coefficient
  lower : ∀ power ∈ p.power, FloatValue.lowerAscii power = power
  exponent : p.power.elim (some 0) Text.readSigned16 = some (e + (p.fraction.getD []).length)

end Parts

/-! ## Digits -/

theorem lowerAscii_of_isDigit {s : List Char} (h : ∀ c ∈ s, Text.isDigit c = true) :
    FloatValue.lowerAscii s = s := by
  have hlower : "0123456789".toList.all (fun c => c.toLower = c) = true := by decide
  have hsame : ∀ c ∈ s, c.toLower = c :=
    fun c hc => of_decide_eq_true (List.all_eq_true.mp hlower c (Text.mem_of_isDigit (h c hc)))
  exact (List.map_congr_left hsame).trans (List.map_id s)

/-- No mark of a number is a digit. -/
theorem not_mem_of_isDigit {mark : Char} {s : List Char} (h : ∀ c ∈ s, Text.isDigit c = true)
    (hmark : Text.isDigit mark = false) : mark ∉ s := by
  intro hmem
  rw [h mark hmem] at hmark
  cases hmark

theorem dropLeadingZeros_zeros (k n : Nat) :
    dropLeadingZeros (List.replicate k '0' ++ Text.natDigits n) = Text.natDigits n := by
  have hzeros : ∀ c ∈ List.replicate k '0', decide (c = '0') = true := by
    intro c hc
    simpa using (List.mem_replicate.mp hc).2
  rw [dropLeadingZeros, List.dropWhile_append_of_pos hzeros]
  by_cases hn : n = 0
  · subst hn
    rfl
  · obtain ⟨c, r, hdigits⟩ := List.exists_cons_of_ne_nil (Text.natDigits_ne_nil n)
    have hhead := Text.head?_natDigits_ne_zero hn
    rw [hdigits] at hhead ⊢
    have hc : c ≠ '0' := fun heq => hhead (congrArg some heq)
    rw [List.dropWhile_cons_of_neg (by simpa using hc)]

/-! ## Writing -/

theorem lowerAscii_intDigits (i : Int) :
    FloatValue.lowerAscii (Text.intDigits i) = Text.intDigits i := by
  have hdigits := lowerAscii_of_isDigit (fun c => @Text.isDigit_of_mem_natDigits i.natAbs c)
  unfold Text.intDigits
  split
  · exact congrArg ('-' :: ·) hdigits
  · exact hdigits

/-- The power of ten of a scientific text. -/
def powerDigits (leading : Int) : List Char :=
  (if 0 < leading then ['+'] else []) ++ Text.intDigits leading

theorem lowerAscii_powerDigits (leading : Int) :
    FloatValue.lowerAscii (powerDigits leading) = powerDigits leading := by
  have hdigits := lowerAscii_intDigits leading
  unfold powerDigits
  split
  · exact congrArg ('+' :: ·) hdigits
  · exact hdigits

/-- A power is read back with or without the sign of a positive one. -/
theorem readSigned16_powerDigits {leading : Int} (h : Text.fitsSigned16 leading = true) :
    Text.readSigned16 (powerDigits leading) = some leading := by
  unfold powerDigits
  split
  · next hpos =>
    have hvalue : (leading.natAbs : Int) = leading := by omega
    rw [Text.intDigits, if_neg (by omega), Text.readSigned16, List.singleton_append,
      Text.readInteger_plus, hvalue, Option.filter_some, if_pos h]
  · exact Text.readSigned16_intDigits h

/-- Digits that write a coefficient, also behind zeros. -/
structure Writes (digits : List Char) (coefficient : Nat) : Prop where
  ne_nil : digits ≠ []
  isDigit : ∀ c ∈ digits, Text.isDigit c = true
  zeros : ∀ k, dropLeadingZeros (List.replicate k '0' ++ digits) = Text.natDigits coefficient

theorem writes_natDigits (coefficient : Nat) : Writes (Text.natDigits coefficient) coefficient :=
  ⟨Text.natDigits_ne_nil coefficient, fun _ => Text.isDigit_of_mem_natDigits,
    fun k => dropLeadingZeros_zeros k coefficient⟩

section

variable {digits : List Char} {coefficient : Nat} {e : Int}

/-- The digits alone, the point among them and zeros in front of them have parts that denote the
    number with so many places. -/
theorem exists_positional (h : Writes digits coefficient) {places : Nat} (he : e = -places) :
    ∃ p : Parts,
      (if places = 0 then digits
        else if places < digits.length then
          digits.take (digits.length - places) ++ '.' :: digits.drop (digits.length - places)
        else '0' :: '.' :: (List.replicate (places - digits.length) '0' ++ digits)) =
          p.text 'E' ∧ p.Denote coefficient e := by
  subst he
  obtain ⟨hne, hdigits, hzeros⟩ := h
  have hplain : dropLeadingZeros digits = Text.natDigits coefficient := hzeros 0
  split
  · next hnone =>
    refine ⟨⟨digits, none, none⟩, by simp [Parts.text, Parts.number], hne, ?_, ?_, nofun, ?_⟩
    · simpa [Parts.digits] using hdigits
    · simpa [Parts.digits] using hplain
    · simp [hnone]
  · split
    · next hinside =>
      -- the point stands among the digits
      refine ⟨⟨digits.take (digits.length - places), some (digits.drop (digits.length - places)),
        none⟩, by simp [Parts.text, Parts.number], ?_, ?_, ?_, nofun, ?_⟩
      · simp [hne]
        omega
      · simpa [Parts.digits] using hdigits
      · simpa [Parts.digits] using hplain
      · simp
        omega
    · next hbehind =>
      -- the point stands in front of them, and zeros fill up the places
      refine ⟨⟨['0'], some (List.replicate (places - digits.length) '0' ++ digits), none⟩,
        by simp [Parts.text, Parts.number], List.cons_ne_nil _ _, ?_, ?_, nofun, ?_⟩
      · have hzero : Text.isDigit '0' = true := rfl
        simpa [Parts.digits, or_imp, forall_and, hzero] using hdigits
      · exact hzeros (places - digits.length + 1)
      · simp
        omega

/-- One digit in front of the point and a power behind the digits have such parts, too. -/
theorem exists_scientific :
    Writes digits coefficient →
    Text.readSigned16 (powerDigits (e + digits.length - 1)) = some (e + digits.length - 1) →
    ∃ p : Parts,
      (match digits with
        | c :: d :: rest => c :: '.' :: d :: (rest ++ 'E' :: powerDigits (e + digits.length - 1))
        | _ => digits ++ 'E' :: powerDigits (e + digits.length - 1)) = p.text 'E' ∧
        p.Denote coefficient e := by
  rintro ⟨hne, hdigits, hzeros⟩ hread
  have hplain : dropLeadingZeros digits = Text.natDigits coefficient := hzeros 0
  have hlower : ∀ power ∈ some (powerDigits (e + digits.length - 1)),
      FloatValue.lowerAscii power = power := by
    rintro _ ⟨⟩
    exact lowerAscii_powerDigits _
  split
  · next c d rest =>
    -- the point stands behind the first digit
    refine ⟨⟨[c], some (d :: rest), some (powerDigits (e + (c :: d :: rest).length - 1))⟩,
      by simp [Parts.text, Parts.number], List.cons_ne_nil _ _, hdigits, hplain, hlower, ?_⟩
    rw [Option.elim_some, hread]
    simp
    omega
  · next hsingle =>
    refine ⟨⟨digits, none, some (powerDigits (e + digits.length - 1))⟩,
      by simp [Parts.text, Parts.number], hne, ?_, ?_, hlower, ?_⟩
    · simpa [Parts.digits] using hdigits
    · simpa [Parts.digits] using hplain
    · have hone : digits.length = 1 := by
        cases digits with
        | nil => exact absurd rfl hne
        | cons c r =>
          cases r with
          | nil => rfl
          | cons d rest => exact absurd rfl (hsingle c d rest)
      rw [Option.elim_some, hread]
      simp
      omega

/-- The text of a finite number has parts that denote it. -/
theorem exists_parts (hc : coefficient < 10 ^ maxDigits) (hlow : minExponent ≤ e)
    (hhigh : e ≤ maxExponent) :
    ∃ p : Parts, finiteText coefficient e = p.text 'E' ∧ p.Denote coefficient e := by
  have hlength := Text.length_natDigits_le (by decide) hc
  have hpos := List.length_pos_of_ne_nil (Text.natDigits_ne_nil coefficient)
  have hwrites := writes_natDigits coefficient
  simp only [finiteText]
  -- only these facts about the digits matter from here on
  generalize Text.natDigits coefficient = digits at *
  split
  · next hpositional => exact exists_positional hwrites (by omega)
  · refine exists_scientific hwrites (readSigned16_powerDigits ?_)
    rw [minExponent] at hlow
    rw [maxExponent] at hhigh
    rw [maxDigits] at hlength
    simp only [Text.fitsSigned16, Bool.and_eq_true, decide_eq_true_eq]
    omega

end

/-! ## Reading -/

/-- A text is split at the first mark. -/
theorem splitAt_append_cons {mark : Char} {s : List Char} (h : mark ∉ s) (rest : List Char) :
    splitAt mark (s ++ mark :: rest) = (s, some rest) := by
  have hspan : (s ++ mark :: rest).span (· ≠ mark) = (s, mark :: rest) := by
    refine Text.span_append_cons (fun c hc => ?_) (by simp)
    simpa using fun heq : c = mark => h (heq ▸ hc)
  rw [splitAt, hspan]

theorem splitAt_of_not_mem {mark : Char} {s : List Char} (h : mark ∉ s) :
    splitAt mark s = (s, none) := by
  have hspan : s.span (· ≠ mark) = (s, []) := by
    refine Text.span_of_forall fun c hc => ?_
    simpa using fun heq : c = mark => h (heq ▸ hc)
  rw [splitAt, hspan]

theorem readNatural_natDigits (n : Nat) : Text.readNatural (Text.natDigits n) = some n :=
  Text.readNatural_of_natOfDigits? (Text.natOfDigits?_natDigits n)

namespace Parts

variable {p : Parts} {coefficient : Nat} {e : Int}

theorem Denote.isDigit_whole (h : p.Denote coefficient e) :
    ∀ c ∈ p.whole, Text.isDigit c = true :=
  fun c hc => h.isDigit c (List.mem_append_left _ hc)

theorem Denote.isDigit_fraction (h : p.Denote coefficient e) {fraction : List Char}
    (hfraction : p.fraction = some fraction) : ∀ c ∈ fraction, Text.isDigit c = true := by
  intro c hc
  refine h.isDigit c (List.mem_append_right _ ?_)
  rwa [hfraction]

theorem Denote.lowerAscii_number (h : p.Denote coefficient e) :
    FloatValue.lowerAscii p.number = p.number := by
  have hwhole := lowerAscii_of_isDigit h.isDigit_whole
  have hdot : ('.').toLower = '.' := rfl
  rw [FloatValue.lowerAscii] at hwhole
  cases hfraction : p.fraction with
  | none => simp [number, hfraction, FloatValue.lowerAscii, hwhole]
  | some fraction =>
    have hbehind := lowerAscii_of_isDigit (h.isDigit_fraction hfraction)
    rw [FloatValue.lowerAscii] at hbehind
    simp [number, hfraction, FloatValue.lowerAscii, hwhole, hbehind, hdot]

/-- In lower case the mark of the power is another one, and nothing else changes. -/
theorem Denote.lowerAscii_text (h : p.Denote coefficient e) :
    FloatValue.lowerAscii (p.text 'E') = p.text 'e' := by
  have hnumber := h.lowerAscii_number
  have hmark : ('E').toLower = 'e' := rfl
  rw [FloatValue.lowerAscii] at hnumber
  cases hpower : p.power with
  | none => simp [text, hpower, FloatValue.lowerAscii, hnumber]
  | some power =>
    have hbehind := h.lower power hpower
    rw [FloatValue.lowerAscii] at hbehind
    simp [text, hpower, FloatValue.lowerAscii, hnumber, hbehind, hmark]

theorem Denote.splitAt_number (h : p.Denote coefficient e) :
    splitAt '.' p.number = (p.whole, p.fraction) := by
  have hdot := @not_mem_of_isDigit '.' _ h.isDigit_whole rfl
  cases hfraction : p.fraction with
  | none => simpa [number, hfraction] using splitAt_of_not_mem hdot
  | some fraction => simpa [number, hfraction] using splitAt_append_cons hdot fraction

theorem Denote.splitAt_text (h : p.Denote coefficient e) :
    splitAt 'e' (p.text 'e') = (p.number, p.power) := by
  have hmark : 'e' ∉ p.number := by
    have hwhole := @not_mem_of_isDigit 'e' _ h.isDigit_whole rfl
    cases hfraction : p.fraction with
    | none => simpa [number, hfraction] using hwhole
    | some fraction =>
      have hbehind := @not_mem_of_isDigit 'e' _ (h.isDigit_fraction hfraction) rfl
      simp [number, hfraction, hwhole, hbehind]
  cases hpower : p.power with
  | none => simpa [text, hpower] using splitAt_of_not_mem hmark
  | some power => simpa [text, hpower] using splitAt_append_cons hmark power

/-- A finite number is read from its parts: nothing has to be cut off or filled up. -/
theorem Denote.readFinite? (h : p.Denote coefficient e) (hc : coefficient < 10 ^ maxDigits)
    (hlow : minExponent ≤ e) (hhigh : e ≤ maxExponent) (negative : Bool) :
    readFinite? negative (p.text 'e') = some (finite negative coefficient e) := by
  have hlength := Text.length_natDigits_le (by decide) hc
  have hfits : Text.fitsSigned16 e = true := by
    rw [minExponent] at hlow
    rw [maxExponent] at hhigh
    simp only [Text.fitsSigned16, Bool.and_eq_true, decide_eq_true_eq]
    omega
  -- none of the three ways to make a number fit has anything to do
  have hdigits : fitDigits (Text.natDigits coefficient) e = some (Text.natDigits coefficient, e) :=
    if_neg (by omega)
  have hraise : raiseExponent (Text.natDigits coefficient) e =
      some (Text.natDigits coefficient, e) := if_pos hlow
  have hlower : lowerExponent (Text.natDigits coefficient) e =
      some (Text.natDigits coefficient, e) := if_pos hhigh
  have hexponent : e + (p.fraction.getD []).length - (p.fraction.getD []).length = e := by omega
  have hcoefficient := h.coefficient
  have hpower := h.exponent
  rw [digits] at hcoefficient
  cases hmark : p.power with
  | none =>
    rw [hmark, Option.elim_none, Option.some.injEq] at hpower
    simp only [Decimal128.readFinite?, h.splitAt_text, h.splitAt_number, hmark, bind, Option.bind,
      hpower, hexponent, hfits, Bool.not_true, Bool.false_eq_true, if_false, hcoefficient, hdigits,
      hraise, hlower, readNatural_natDigits]
  | some power =>
    rw [hmark, Option.elim_some] at hpower
    simp only [Decimal128.readFinite?, h.splitAt_text, h.splitAt_number, hmark, bind, Option.bind,
      hpower, hexponent, hfits, Bool.not_true, Bool.false_eq_true, if_false, hcoefficient, hdigits,
      hraise, hlower, readNatural_natDigits]

/-- The text of a number starts with a digit, so it is neither a word nor has it a sign. -/
theorem Denote.exists_text_eq (h : p.Denote coefficient e) (mark : Char) :
    ∃ c r, p.text mark = c :: r ∧ Text.isDigit c = true := by
  obtain ⟨c, r, hwhole⟩ := List.exists_cons_of_ne_nil h.whole
  refine ⟨c, r ++ p.fraction.elim [] ('.' :: ·) ++ p.power.elim [] (mark :: ·), ?_,
    h.isDigit_whole c (hwhole ▸ List.mem_cons_self)⟩
  simp only [text, number, hwhole, List.cons_append]

theorem Denote.readUnsigned? (h : p.Denote coefficient e) (hc : coefficient < 10 ^ maxDigits)
    (hlow : minExponent ≤ e) (hhigh : e ≤ maxExponent) (negative : Bool) :
    readUnsigned? negative (p.text 'E') = some (finite negative coefficient e) := by
  -- the words start with a letter
  obtain ⟨c, r, htext, hdigit⟩ := h.exists_text_eq 'e'
  have hword : ∀ w : String, (∀ d ∈ w.toList.head?, Text.isDigit d = false) →
      String.ofList (p.text 'e') ≠ w := by
    rintro _ hletter rfl
    rw [String.toList_ofList, htext] at hletter
    exact absurd hdigit (by rw [hletter c rfl]; decide)
  have hnan := hword "nan" (by rintro _ ⟨⟩; rfl)
  have hsnan := hword "snan" (by rintro _ ⟨⟩; rfl)
  have hinf := hword "inf" (by rintro _ ⟨⟩; rfl)
  have hinfinity := hword "infinity" (by rintro _ ⟨⟩; rfl)
  simp only [Decimal128.readUnsigned?, h.lowerAscii_text, if_neg hnan, if_neg hsnan, hinf,
    hinfinity, or_self, if_false]
  exact h.readFinite? hc hlow hhigh negative

end Parts

/-- A number within the limits of the format is read back from its text. -/
theorem read?_text {d : Decimal128} (h : d.IsStored) : read? d.text = some d.plainNan := by
  cases d with
  | finite negative coefficient e =>
    obtain ⟨hc, hlow, hhigh⟩ := h
    obtain ⟨p, htext, hdenote⟩ := exists_parts hc hlow hhigh
    have hread := hdenote.readUnsigned? hc hlow hhigh negative
    rw [text, htext]
    cases negative with
    | true => exact hread
    | false =>
      obtain ⟨c, r, hsplit, hdigit⟩ := hdenote.exists_text_eq 'E'
      rw [hsplit] at hread ⊢
      unfold read?
      split
      · next heq =>
        cases heq
        exact absurd hdigit (by decide)
      · next heq =>
        cases heq
        exact absurd hdigit (by decide)
      · exact hread
  | infinite negative => cases negative <;> rfl
  | nan negative signalling => rfl

/-! ## Limits -/

theorem length_le_of_dropExact {count : Nat} {digits kept : List Char}
    (h : dropExact count digits = some kept) : kept.length ≤ count := by
  unfold dropExact at h
  obtain ⟨-, h⟩ := Option.ite_none_right_eq_some.mp h
  rw [← Option.some.inj h]
  exact List.length_take_le count digits

theorem length_le_of_fitDigits {digits kept : List Char} {e f : Int}
    (h : fitDigits digits e = some (kept, f)) : kept.length ≤ maxDigits := by
  unfold fitDigits at h
  split at h
  · obtain ⟨_, hkept, h⟩ := Option.bind_eq_some_iff.mp h
    obtain ⟨-, h⟩ := Option.ite_none_right_eq_some.mp h
    cases h
    exact length_le_of_dropExact hkept
  · cases h
    omega

theorem raiseExponent_spec {digits kept : List Char} {e f : Int}
    (hlength : digits.length ≤ maxDigits) (h : raiseExponent digits e = some (kept, f)) :
    kept.length ≤ maxDigits ∧ minExponent ≤ f := by
  unfold raiseExponent at h
  split at h
  · next hlow =>
    cases h
    exact ⟨hlength, hlow⟩
  · split at h
    · next hzero =>
      cases h
      rw [hzero]
      exact ⟨by decide, le_refl _⟩
    · -- zeros at the end are cut off, so that the digits become fewer
      obtain ⟨-, h⟩ := Option.ite_none_left_eq_some.mp h
      obtain ⟨_, hkept, heq⟩ := Option.map_eq_some_iff.mp h
      cases heq
      have hshort := length_le_of_dropExact hkept
      exact ⟨by omega, le_refl _⟩

theorem lowerExponent_spec {digits kept : List Char} {e f : Int}
    (hlength : digits.length ≤ maxDigits) (hlow : minExponent ≤ e)
    (h : lowerExponent digits e = some (kept, f)) :
    kept.length ≤ maxDigits ∧ minExponent ≤ f ∧ f ≤ maxExponent := by
  unfold lowerExponent at h
  split at h
  · next hhigh =>
    cases h
    exact ⟨hlength, hlow, hhigh⟩
  · split at h
    · next hzero =>
      cases h
      rw [hzero]
      exact ⟨by decide, by decide, le_refl _⟩
    · -- zeros are put behind the digits where there is room for them
      obtain ⟨hroom, h⟩ := Option.ite_none_left_eq_some.mp h
      cases h
      rw [List.length_append, List.length_replicate]
      exact ⟨by omega, by decide, le_refl _⟩

/-- A run of so many characters, one of which may be a sign, writes a number below that power. -/
theorem readNatural_lt {s : List Char} {n : Nat} (h : Text.readNatural s = some n) :
    n < 10 ^ s.length := by
  unfold Text.readNatural at h
  split at h
  · exact (Text.lt_of_natOfDigits? h).trans
      (Nat.pow_lt_pow_of_lt (by decide) (Nat.lt_succ_self _))
  · exact Text.lt_of_natOfDigits? h

theorem isStored_of_readFinite? {negative : Bool} {s : List Char} {d : Decimal128}
    (h : readFinite? negative s = some d) : d.IsStored := by
  -- with a power and without one the digits are fitted in the same way
  have hfitted : ∀ digits e, (fitDigits digits e).bind (fun x => (raiseExponent x.1 x.2).bind
      fun x => (lowerExponent x.1 x.2).bind fun x => (Text.readNatural x.1).bind fun coefficient =>
        some (finite negative coefficient x.2)) = some d → d.IsStored := by
    intro digits e h
    obtain ⟨fitted, hfit, h⟩ := Option.bind_eq_some_iff.mp h
    obtain ⟨raised, hraise, h⟩ := Option.bind_eq_some_iff.mp h
    obtain ⟨lowered, hlower, h⟩ := Option.bind_eq_some_iff.mp h
    obtain ⟨coefficient, hread, h⟩ := Option.bind_eq_some_iff.mp h
    cases h
    obtain ⟨hraised, hlow⟩ := raiseExponent_spec (length_le_of_fitDigits hfit) hraise
    obtain ⟨hlowered, hlow, hhigh⟩ := lowerExponent_spec hraised hlow hlower
    exact ⟨(readNatural_lt hread).trans_le (Nat.pow_le_pow_right (by decide) hlowered), hlow, hhigh⟩
  simp only [readFinite?] at h
  split at h
  · obtain ⟨_, -, h⟩ := Option.bind_eq_some_iff.mp h
    obtain ⟨-, h⟩ := Option.ite_none_left_eq_some.mp h
    exact hfitted _ _ h
  · obtain ⟨_, -, h⟩ := Option.bind_eq_some_iff.mp h
    obtain ⟨-, h⟩ := Option.ite_none_left_eq_some.mp h
    exact hfitted _ _ h

/-- What is read is within the limits of the format. -/
theorem isStored_of_read? {s : List Char} {d : Decimal128} (h : read? s = some d) :
    d.IsStored := by
  have hunsigned : ∀ negative s, readUnsigned? negative s = some d → d.IsStored := by
    intro negative s h
    simp only [readUnsigned?] at h
    split at h
    · cases h
      trivial
    · split at h
      · cases h
        trivial
      · split at h
        · cases h
          trivial
        · exact isStored_of_readFinite? h
  unfold read? at h
  split at h
  · exact hunsigned _ _ h
  · exact hunsigned _ _ h
  · exact hunsigned _ _ h

end ShellQuery.Decimal128
