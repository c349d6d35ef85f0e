import ShellQuery.Bson.Calendar
import ShellQuery.Proofs.Text.Digits
import ShellQuery.Proofs.Text.Names

/-!
# Points in time that are written and read

Every day has one date, which exists in the calendar and has the number of the day.  From it follows
that a point in time between 1970 and 9999 is read back from its text, and whatever text is read has
a number of milliseconds of 64 bits.
-/

namespace ShellQuery.Calendar

/-! ## Years -/

/-- Four hundred years have 146097 days, and no year strays far from its share of them. -/
theorem daysBeforeYear_bounds (y : Nat) :
    146097 * y ≤ 400 * daysBeforeYear y + 400 ∧ 400 * daysBeforeYear y ≤ 146097 * y + 700 := by
  simp only [daysBeforeYear]
  omega

/-- The year of a day starts at or before it and the next year after it. -/
theorem yearOfDay_spec (n : Nat) :
    daysBeforeYear (yearOfDay n) ≤ n ∧ n < daysBeforeYear (yearOfDay n + 1) := by
  have hguess : n * 400 / 146097 * 146097 ≤ n * 400 ∧
      n * 400 < (n * 400 / 146097 + 1) * 146097 := by omega
  simp only [yearOfDay]
  generalize n * 400 / 146097 = guess at *
  -- the share of the days is off by one year at most
  split
  · next hlow =>
    have hpos : guess ≠ 0 := by
      rintro rfl
      exact absurd hlow (Nat.not_lt_zero n)
    have hlast := daysBeforeYear_bounds (guess - 1)
    rw [Nat.sub_add_cancel (Nat.pos_of_ne_zero hpos)]
    omega
  · split
    · next hlow hhigh =>
      have hnext := daysBeforeYear_bounds (guess + 1 + 1)
      omega
    · next hlow hhigh => omega

/-- A year is as long as its months together. -/
theorem daysBeforeYear_succ (y : Nat) :
    daysBeforeYear (y + 1) = daysBeforeYear y + (monthLengths y).sum := by
  -- each of the three counts of years goes up behind a year that its divisor divides
  have hfour : (y + 1 + 3) / 4 = (y + 3) / 4 + if y % 4 = 0 then 1 else 0 := by split <;> omega
  have hhundred : (y + 1 + 99) / 100 = (y + 99) / 100 + if y % 100 = 0 then 1 else 0 := by
    split <;> omega
  have hfourhundred : (y + 1 + 399) / 400 = (y + 399) / 400 + if y % 400 = 0 then 1 else 0 := by
    split <;> omega
  have hsum : (monthLengths y).sum = 365 + if isLeap y then 1 else 0 := by
    rw [monthLengths]
    split <;> rfl
  have hleap : isLeap y = true ↔ y % 4 = 0 ∧ (y % 100 ≠ 0 ∨ y % 400 = 0) := by simp [isLeap]
  simp only [daysBeforeYear, hsum, hleap, hfour, hhundred, hfourhundred]
  split <;> split <;> split <;> split <;> omega

theorem yearOfDay_lt {n : Nat} (h : n < daysBeforeYear 10000) : yearOfDay n < 10000 := by
  obtain ⟨hle, -⟩ := yearOfDay_spec n
  have hbounds := daysBeforeYear_bounds (yearOfDay n)
  have hlast : daysBeforeYear 10000 = 3652425 := rfl
  have hne : yearOfDay n ≠ 10000 := by
    intro heq
    rw [heq] at hle
    omega
  omega

/-! ## Months -/

/-- A day of the year lies in one of the months. -/
theorem monthOfDay_spec {lengths : List Nat} {n : Nat} (month : Nat) (h : n < lengths.sum) :
    ∃ k length day, lengths[k]? = some length ∧ day < length ∧ (lengths.take k).sum + day = n ∧
      monthOfDay lengths month n = (month + k, day + 1) := by
  induction lengths generalizing month n with
  | nil => exact absurd h (Nat.not_lt_zero n)
  | cons length rest ih =>
    rw [List.sum_cons] at h
    rw [monthOfDay]
    split
    · next hthis => exact ⟨0, length, n, rfl, hthis, Nat.zero_add n, rfl⟩
    · next hlater =>
      -- the day is looked for in the months behind, counted from their first day
      obtain ⟨k, other, day, hlength, hday, hsum, heq⟩ := ih (n := n - length) (month + 1) (by omega)
      refine ⟨k + 1, other, day, hlength, hday, ?_, ?_⟩
      · rw [List.take_succ_cons, List.sum_cons]
        omega
      · rw [heq]
        congr 1
        omega

theorem length_monthLengths (y : Nat) : (monthLengths y).length = 12 :=
  rfl

theorem le_of_mem_monthLengths {y length : Nat} (h : length ∈ monthLengths y) : length ≤ 31 := by
  have hall : ∀ february ≤ 29,
      ∀ l ∈ [31, february, 31, 30, 31, 30, 31, 31, 30, 31, 30, 31], l ≤ 31 := by decide
  refine hall (if isLeap y then 29 else 28) ?_ length h
  split <;> decide

/-! ## Dates -/

/-- A date that exists has its month and its day of the month in bounds. -/
theorem Date.isValid_iff {d : Date} :
    d.isValid = true ↔ 1 ≤ d.month ∧ 1 ≤ d.day ∧
      ∃ length, (monthLengths d.year)[d.month - 1]? = some length ∧ d.day ≤ length := by
  unfold isValid
  cases (monthLengths d.year)[d.month - 1]? <;> simp [and_assoc]

theorem Date.bounds {d : Date} (h : d.isValid = true) : d.month ≤ 12 ∧ d.day ≤ 31 := by
  obtain ⟨hmonth, -, length, hlength, hday⟩ := isValid_iff.mp h
  obtain ⟨hlt, -⟩ := List.getElem?_eq_some_iff.mp hlength
  rw [length_monthLengths] at hlt
  exact ⟨by omega, hday.trans (le_of_mem_monthLengths (List.mem_of_getElem? hlength))⟩

theorem dateOfDay_spec (n : Nat) :
    (dateOfDay n).isValid = true ∧ (dateOfDay n).dayNumber = n ∧
      (dateOfDay n).year = yearOfDay n := by
  obtain ⟨hfrom, hto⟩ := yearOfDay_spec n
  have hday : n - daysBeforeYear (yearOfDay n) < (monthLengths (yearOfDay n)).sum := by
    rw [daysBeforeYear_succ] at hto
    omega
  -- the day of the year lies in a month, which is the month of the date
  obtain ⟨k, length, day, hlength, hlt, hsum, heq⟩ := monthOfDay_spec 1 hday
  have hdate : dateOfDay n = ⟨yearOfDay n, 1 + k, day + 1⟩ := by simp only [dateOfDay, heq]
  have hmonth : 1 + k - 1 = k := by omega
  rw [hdate]
  refine ⟨Date.isValid_iff.mpr ⟨by simp, by simp, length, ?_, hlt⟩, ?_, rfl⟩
  · rw [hmonth]
    exact hlength
  · rw [List.sum] at hsum
    simp only [Date.dayNumber, hmonth]
    omega

/-! ## Digits of a fixed number -/

/-- Digits off the front of a text. -/
theorem readDigits_append {digits : List Char} {acc n : Nat}
    (h : Text.accumulate 10 Text.digitValue? acc digits = some n) (rest : List Char) :
    readDigits digits.length acc (digits ++ rest) = some (n, rest) := by
  induction digits generalizing acc with
  | nil =>
    cases h
    rfl
  | cons c r ih =>
    rw [Text.accumulate] at h
    rw [List.length_cons, List.cons_append, readDigits]
    cases hd : Text.digitValue? c with
    | none =>
      rw [hd] at h
      cases h
    | some d =>
      rw [hd] at h
      exact ih h

theorem readDigits_paddedDigits {width n : Nat} (hwidth : 0 < width) (hn : n < 10 ^ width)
    (rest : List Char) :
    readDigits width 0 (Text.paddedDigits width n ++ rest) = some (n, rest) := by
  have hread := readDigits_append (Text.accumulate_paddedDigits width n) rest
  rwa [Text.length_paddedDigits hwidth hn] at hread

/-- Nothing else comes off the front of a text. -/
theorem exists_of_readDigits {count acc n : Nat} {s rest : List Char}
    (h : readDigits count acc s = some (n, rest)) :
    ∃ digits, s = digits ++ rest ∧ digits.length = count ∧
      Text.accumulate 10 Text.digitValue? acc digits = some n := by
  induction count generalizing acc s with
  | zero =>
    cases h
    exact ⟨[], rfl, rfl, rfl⟩
  | succ count ih =>
    cases s with
    | nil => cases h
    | cons c r =>
      rw [readDigits] at h
      split at h
      · next d hd =>
        obtain ⟨digits, rfl, rfl, hdigits⟩ := ih h
        refine ⟨c :: digits, rfl, rfl, ?_⟩
        rw [Text.accumulate, hd]
        exact hdigits
      · cases h

/-- So many digits write a number below that power of ten. -/
theorem readDigits_lt {count acc n : Nat} {s rest : List Char}
    (h : readDigits count acc s = some (n, rest)) : n < (acc + 1) * 10 ^ count := by
  obtain ⟨digits, -, rfl, hdigits⟩ := exists_of_readDigits h
  exact Text.lt_of_accumulate (fun _ _ => Text.digitValue?_lt) hdigits

/-! ## Fractions of a second -/

/-- Zeros at the end count for powers of ten. -/
theorem accumulate_zeros_end (n k : Nat) :
    Text.accumulate 10 Text.digitValue? n (List.replicate k '0') = some (n * 10 ^ k) := by
  induction k generalizing n with
  | zero => rw [Nat.pow_zero, Nat.mul_one]; rfl
  | succ k ih =>
    have hzero : Text.digitValue? '0' = some 0 := rfl
    rw [List.replicate_succ, Text.accumulate, hzero]
    show Text.accumulate 10 Text.digitValue? (n * 10) (List.replicate k '0') = _
    rw [ih, Nat.pow_succ, Nat.mul_assoc, Nat.mul_comm 10]

/-- A text is its part without the zeros at the end, and those zeros. -/
theorem exists_eq_append_zeros (s : List Char) :
    ∃ k, s = (s.reverse.dropWhile (· = '0')).reverse ++ List.replicate k '0' := by
  refine ⟨(s.reverse.takeWhile (· = '0')).length, ?_⟩
  have hzeros : (s.reverse.takeWhile (· = '0')).reverse =
      List.replicate (s.reverse.takeWhile (· = '0')).length '0' := by
    rw [List.eq_replicate_iff]
    refine ⟨List.length_reverse, fun c hc => ?_⟩
    simpa using List.mem_takeWhile_imp (List.mem_reverse.mp hc)
  rw [← hzeros, ← List.reverse_append, List.takeWhile_append_dropWhile, List.reverse_reverse]

/-- Milliseconds are read back from their fraction, in nanoseconds. -/
theorem readFraction_fractionText {millis : Nat} (h : millis < 1000) :
    readFraction (fractionText millis ++ ['Z']) = some (millis * 1000000, ['Z']) := by
  unfold fractionText
  split
  · next hzero =>
    subst hzero
    rfl
  · next hpos =>
    obtain ⟨k, hsplit⟩ := exists_eq_append_zeros (Text.paddedDigits 3 millis)
    have hread := Text.accumulate_paddedDigits 3 millis
    have hlength := Text.length_paddedDigits (show 0 < 3 by decide) (show millis < 10 ^ 3 from h)
    have hdigits := Text.value?_isSome_of_accumulate hread
    -- only the digits that are kept matter from here on
    generalize ((Text.paddedDigits 3 millis).reverse.dropWhile (· = '0')).reverse = kept at *
    rw [hsplit, Text.accumulate_append] at hread
    obtain ⟨n, hn, hzeros⟩ := Option.bind_eq_some_iff.mp hread
    rw [accumulate_zeros_end, Option.some.injEq] at hzeros
    rw [hsplit, List.length_append, List.length_replicate] at hlength
    have hkept : kept ≠ [] := by
      rintro rfl
      cases hn
      omega
    have hspan : (kept ++ ['Z']).span Text.isDigit = (kept, ['Z']) := by
      refine Text.span_append_cons (fun d hd => hdigits d ?_) rfl
      rw [hsplit]
      exact List.mem_append_left _ hd
    have hnanos : nanosOf kept = millis * 1000000 := by
      have hpower : 10 ^ (9 - kept.length) = 10 ^ k * 1000000 := by
        rw [show 9 - kept.length = k + 6 by omega, Nat.pow_add]
      rw [nanosOf, List.take_of_length_le (by omega), Text.natOfDigits?_eq_accumulate hkept, hn]
      show n * 10 ^ (9 - kept.length) = _
      rw [hpower, ← Nat.mul_assoc, hzeros]
    rw [List.cons_append, readFraction, hspan]
    cases kept with
    | nil => exact absurd rfl hkept
    | cons d r => exact congrArg (fun nanos => some (nanos, ['Z'])) hnanos

/-! ## Main results -/

/-- Date and time of day are read from their digits. -/
theorem readInstant_digits {date : Date} {hour minute second nanos : Nat} {fraction : List Char}
    (hvalid : date.isValid = true) (hyear : date.year < 10 ^ 4) (hhour : hour ≤ 23)
    (hminute : minute ≤ 59) (hsecond : second ≤ 59)
    (hfraction : readFraction (fraction ++ ['Z']) = some (nanos, ['Z'])) :
    readInstant (Text.paddedDigits 4 date.year ++ '-' :: (Text.paddedDigits 2 date.month ++
      '-' :: (Text.paddedDigits 2 date.day ++ 'T' :: (Text.paddedDigits 2 hour ++
      ':' :: (Text.paddedDigits 2 minute ++ ':' :: (Text.paddedDigits 2 second ++
      fraction ++ ['Z'])))))) =
      some (Int.tdiv ((((date.dayNumber : Int) - epochDay) * 86400 +
        (hour * 3600 + minute * 60 + second : Nat)) * 1000000000 + nanos) 1000000) := by
  obtain ⟨hmonth, hday⟩ := Date.bounds hvalid
  have htwo {n : Nat} (hn : n < 10 ^ 2) := @readDigits_paddedDigits 2 n (by decide) hn
  have hseparator : ∀ r, skipSeparator ('T' :: r) = some r := fun _ => rfl
  have hoffset : readOffset ['Z'] = some 0 := rfl
  have hleap : (second == 60) = false := beq_eq_false_iff_ne.mpr (by omega)
  have hbounds : (date.isValid && decide (hour ≤ 23) && decide (minute ≤ 59) &&
      decide (second ≤ 59)) = true := by simp [hvalid, hhour, hminute, hsecond]
  simp only [readInstant, bind, Option.bind, readDigits_paddedDigits (by decide) hyear, expect,
    if_true, htwo (show date.month < 10 ^ 2 by omega), htwo (show date.day < 10 ^ 2 by omega),
    hseparator, htwo (show hour < 10 ^ 2 by omega), htwo (show minute < 10 ^ 2 by omega),
    List.append_assoc, htwo (show second < 10 ^ 2 by omega), hfraction, hoffset, hleap]
  simp only [Bool.false_eq_true, if_false, Bool.false_and, hbounds, if_true, Int.zero_mul,
    Int.sub_zero]

/-- A point in time is read back from its text. -/
theorem readInstant_instantText {millis : Nat} (h : (millis : Int) ≤ lastMillis) :
    readInstant (instantText millis) = some (millis : Int) := by
  have hrest : millis % millisPerDay < 86400000 := Nat.mod_lt _ (by decide)
  have hday : epochDay + millis / millisPerDay < daysBeforeYear 10000 := by
    have hlast : daysBeforeYear 10000 = 3652425 := rfl
    rw [lastMillis] at h
    rw [epochDay, millisPerDay, hlast]
    omega
  obtain ⟨hvalid, hnumber, hyear⟩ := dateOfDay_spec (epochDay + millis / millisPerDay)
  have hyearBound := yearOfDay_lt hday
  rw [← hyear] at hyearBound
  have hfraction := @readFraction_fractionText (millis % millisPerDay % 1000)
    (Nat.mod_lt _ (by decide))
  rw [instantText, readInstant_digits hvalid hyearBound (by omega) (by omega) (by omega) hfraction,
    hnumber, Option.some.injEq]
  -- the parts of the day add up, and nothing is cut off
  have hmillis := Nat.div_add_mod millis millisPerDay
  generalize millis % millisPerDay = rest at *
  rw [millisPerDay] at hmillis ⊢
  rw [Int.tdiv_eq_ediv_of_nonneg (by omega)]
  omega

/-! ## Bounds -/

/-- The digits of an offset stand for less than a day. -/
theorem readOffsetDigits_lt {s : List Char} {n : Nat} (h : readOffsetDigits s = some n) :
    n < 1440 := by
  simp only [readOffsetDigits, bind, Option.bind_eq_some_iff] at h
  obtain ⟨⟨hours, s⟩, -, s, -, ⟨minutes, s⟩, -, h⟩ := h
  obtain ⟨hbounds, h⟩ := Option.ite_none_right_eq_some.mp h
  simp only [Bool.and_eq_true, decide_eq_true_eq] at hbounds
  cases h
  omega

theorem readOffset_bounds {s : List Char} {offset : Int} (h : readOffset s = some offset) :
    -1440 < offset ∧ offset < 1440 := by
  unfold readOffset at h
  split at h
  · cases h
    decide
  · cases h
    decide
  · obtain ⟨_, hread, rfl⟩ := Option.map_eq_some_iff.mp h
    obtain ⟨n, hn, heq⟩ := Option.bind_eq_some_iff.mp hread
    obtain rfl := Option.some.inj heq
    have hlt := readOffsetDigits_lt hn
    omega
  · obtain ⟨_, hread, rfl⟩ := Option.map_eq_some_iff.mp h
    obtain ⟨n, hn, heq⟩ := Option.bind_eq_some_iff.mp hread
    obtain rfl := Option.some.inj heq
    have hlt := readOffsetDigits_lt hn
    omega
  · cases h

/-- A fraction is less than a second. -/
theorem readFraction_lt {s rest : List Char} {nanos : Nat}
    (h : readFraction s = some (nanos, rest)) : nanos < 1000000000 := by
  unfold readFraction at h
  split at h
  · split at h
    · cases h
    · next digits _ _ _ =>
      cases h
      rw [nanosOf]
      cases hvalue : Text.natOfDigits? (digits.take 9) with
      | none => simp
      | some n =>
        have hlength : (digits.take 9).length ≤ 9 := List.length_take_le 9 digits
        have hlt := Text.lt_of_natOfDigits? hvalue
        calc n * 10 ^ (9 - (digits.take 9).length)
            < 10 ^ (digits.take 9).length * 10 ^ (9 - (digits.take 9).length) :=
              Nat.mul_lt_mul_of_pos_right hlt (Nat.pow_pos (by decide))
          _ = 1000000000 := by rw [← Nat.pow_add, Nat.add_sub_cancel' hlength]
  · cases h
    decide

/-- What is read is a date that exists with a time of day and an offset, all of them in bounds. -/
theorem exists_of_readInstant {s : List Char} {millis : Int} (h : readInstant s = some millis) :
    ∃ (date : Date) (second nanos : Nat) (offset : Int), date.isValid = true ∧ date.year < 10000 ∧
      second < 86400 ∧ nanos < 1000000000 ∧ -1440 < offset ∧ offset < 1440 ∧
      millis = Int.tdiv ((((date.dayNumber : Int) - epochDay) * 86400 + second - offset * 60) *
        1000000000 + nanos) 1000000 := by
  unfold readInstant at h
  -- the parts in the order of the text; those in between are single characters
  obtain ⟨⟨year, s⟩, hyear, h⟩ := Option.bind_eq_some_iff.mp h
  obtain ⟨s, -, h⟩ := Option.bind_eq_some_iff.mp h
  obtain ⟨⟨month, s⟩, -, h⟩ := Option.bind_eq_some_iff.mp h
  obtain ⟨s, -, h⟩ := Option.bind_eq_some_iff.mp h
  obtain ⟨⟨day, s⟩, -, h⟩ := Option.bind_eq_some_iff.mp h
  obtain ⟨s, -, h⟩ := Option.bind_eq_some_iff.mp h
  obtain ⟨⟨hour, s⟩, -, h⟩ := Option.bind_eq_some_iff.mp h
  obtain ⟨s, -, h⟩ := Option.bind_eq_some_iff.mp h
  obtain ⟨⟨minute, s⟩, -, h⟩ := Option.bind_eq_some_iff.mp h
  obtain ⟨s, -, h⟩ := Option.bind_eq_some_iff.mp h
  obtain ⟨⟨second, s⟩, -, h⟩ := Option.bind_eq_some_iff.mp h
  obtain ⟨⟨nanos, s⟩, hnanos, h⟩ := Option.bind_eq_some_iff.mp h
  obtain ⟨offset, hoffset, h⟩ := Option.bind_eq_some_iff.mp h
  have hyear := readDigits_lt hyear
  have hnanos := readFraction_lt hnanos
  obtain ⟨hwest, heast⟩ := readOffset_bounds hoffset
  -- the reader has checked the bounds of all parts but the year and the fraction
  obtain ⟨hbounds, h⟩ := Option.ite_none_right_eq_some.mp h
  obtain ⟨-, h⟩ := Option.ite_none_left_eq_some.mp h
  simp only [Bool.and_eq_true, decide_eq_true_eq] at hbounds
  obtain ⟨⟨⟨hvalid, hhour⟩, hminute⟩, hsecond⟩ := hbounds
  refine ⟨⟨year, month, day⟩, _, _, offset, hvalid, by simpa using hyear, ?_, ?_, hwest, heast,
    (Option.some.inj h).symm⟩
  · omega
  · split <;> omega

/-- A date in bounds has a day before the end of its year and the next. -/
theorem Date.dayNumber_lt {d : Date} (h : d.isValid = true) (hyear : d.year < 10000) :
    d.dayNumber < 3660000 := by
  obtain ⟨-, hday⟩ := Date.bounds h
  have hbounds := daysBeforeYear_bounds d.year
  -- the months before that of the date are not longer than all months together
  have hmonths := congrArg List.sum (List.take_append_drop (d.month - 1) (monthLengths d.year))
  rw [List.sum_append] at hmonths
  have hsum : (monthLengths d.year).sum ≤ 366 := by
    rw [monthLengths]
    split <;> decide
  rw [Date.dayNumber, ← List.sum]
  omega

/-- Whatever is read has 64 bits. -/
theorem fitsSigned64_of_readInstant {s : List Char} {millis : Int}
    (h : readInstant s = some millis) : Text.fitsSigned64 millis = true := by
  obtain ⟨date, second, nanos, offset, hvalid, hyear, hsecond, hnanos, hwest, heast, rfl⟩ :=
    exists_of_readInstant h
  have hday := Date.dayNumber_lt hvalid hyear
  rw [epochDay]
  -- to one side or the other of 1970, the quotient is smaller than what is divided
  generalize hmoment : (((date.dayNumber : Int) - (719528 : Nat)) * 86400 + second - offset * 60) *
    1000000000 + nanos = moment
  have hquotient : -9223372036854775808 ≤ moment.tdiv 1000000 ∧
      moment.tdiv 1000000 ≤ 9223372036854775807 := by
    obtain hpos | hneg := Int.le_total 0 moment
    · rw [Int.tdiv_eq_ediv_of_nonneg hpos]
      omega
    · rw [show moment = -(-moment) by omega, Int.neg_tdiv, Int.tdiv_eq_ediv_of_nonneg (by omega)]
      omega
  simpa [Text.fitsSigned64] using hquotient

end ShellQuery.Calendar
