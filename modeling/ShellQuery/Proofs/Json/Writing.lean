import ShellQuery.Proofs.Json.Printing

/-!
# What is written is read back

The compact text of a value denotes that value: what `Proofs/Json/Printing` says of lists and
objects is joined with the rule for the digits of an integer.

Floating-point numbers are left out: `Integral` takes values with integers only, each of 64 bits
with a sign or without.  The main statement is `Integral.denotes`.
-/

namespace ShellQuery.Json

/-! ## Integers -/

/-- The integer has 64 bits, with a sign or without. -/
def IsInteger64 (i : Int) : Prop :=
  -9223372036854775808 ≤ i ∧ i < 18446744073709551616

theorem isWhole_natDigits (n : Nat) : IsWhole (Text.natDigits n) := by
  by_cases hn : n = 0
  · subst hn
    exact .inl rfl
  · exact .inr ⟨⟨Text.natDigits_ne_nil n, fun _ => Text.isDigit_of_mem_natDigits⟩,
      Text.head?_natDigits_ne_zero hn⟩

/-- An integer without point and power stays one. -/
theorem toJson?_natDigits {negative : Bool} {n : Nat}
    (h : if negative then n ≠ 0 ∧ n ≤ 9223372036854775808 else n < Text.bound64) :
    Numeral.toJson? ⟨negative, Text.natDigits n, none, none⟩ =
      some (int (if negative then -(n : Int) else n)) := by
  cases negative with
  | false => simp_all [Numeral.toJson?, Numeral.isInteger, Text.natOfDigits?_natDigits]
  | true =>
    have hfits : Text.fitsSigned64 (-(n : Int)) = true := by
      have hbound := h.2
      simp only [Text.fitsSigned64, Bool.and_eq_true, decide_eq_true_eq]
      omega
    simp [Numeral.toJson?, Numeral.isInteger, Text.natOfDigits?_natDigits, h.1, hfits]

theorem lexeme_intDigits {i : Int} (h : IsInteger64 i) :
    Lexeme (.leaf (int i)) (Text.intDigits i) := by
  obtain ⟨hlow, hhigh⟩ := h
  have hwhole := isWhole_natDigits i.natAbs
  unfold Text.intDigits
  split
  · next hneg =>
    -- a sign and the digits of the distance from zero
    have hvalue := @toJson?_natDigits true i.natAbs ⟨by omega, by omega⟩
    have hi : -(i.natAbs : Int) = i := by omega
    rw [if_pos rfl, hi] at hvalue
    have htext := NumeralText.negative hwhole .absent .absent
    rw [List.append_nil, List.append_nil] at htext
    exact .number htext hvalue
  · next hneg =>
    have hbound : i.natAbs < Text.bound64 := by
      rw [Text.bound64]
      omega
    have hvalue := @toJson?_natDigits false i.natAbs hbound
    have hi : (i.natAbs : Int) = i := by omega
    rw [if_neg (by decide), hi] at hvalue
    have htext := NumeralText.positive hwhole .absent .absent
    rw [List.append_nil, List.append_nil] at htext
    exact .number htext hvalue

/-! ## Values -/

/-- A value whose numbers are integers of 64 bits and whose objects have no name twice, nested at
    most so deep. -/
inductive Integral : Nat → Json → Prop where
  | null {d : Nat} : Integral d null
  | bool {d : Nat} (b : Bool) : Integral d (bool b)
  | int {d : Nat} {i : Int} (h : IsInteger64 i) : Integral d (int i)
  | str {d : Nat} (s : String) : Integral d (str s)
  | arr {d : Nat} {items : List Json} (h : ∀ v ∈ items, Integral d v) : Integral (d + 1) (arr items)
  | obj {d : Nat} {entries : List (String × Json)} (hnodup : (Entries.keys entries).Nodup)
      (h : ∀ e ∈ entries, Integral d e.2) : Integral (d + 1) (obj entries)

/-- The printer writes the phrase in front of any text: `Prints` for the lexemes of the reader. -/
def Writes (d : Nat) (p : Phrase) (print : List Char → List Char) : Prop :=
  ∃ ts, Derives d p ts ∧ ∀ us rest, Spelling us rest → Spelling (ts ++ us) (print rest)

theorem writes_leaf {d : Nat} {v : Json} {l : List Char} (h : Lexeme (.leaf v) l) :
    Writes d (.value v) (l ++ ·) :=
  ⟨[.leaf v], .leaf v, fun _ _ hrest => .token h hrest⟩

/-- A spelling may be joined from space and lexemes. -/
theorem isSpelling_spelling : IsSpelling Spelling where
  space hc h := .space hc h
  mark hc _ _ h := .token (.punctuation hc) h
  text name _ _ h := .token (lexeme_writeString name) h

/-- Values with integers are written.  The induction follows the value; the brackets of a list and
    of an object count for one level of nesting. -/
theorem Integral.writes {d : Nat} {v : Json} (h : Integral d v) :
    Writes d (.value v) (writeOnto v) := by
  induction h with
  | null => exact writes_leaf .null
  | bool b => exact writes_leaf (.bool b)
  | int h => exact writes_leaf (lexeme_intDigits h)
  | str s => exact writes_leaf (lexeme_writeString s)
  | arr _ ih => exact prints_writeOnto_arr isSpelling_spelling ih
  | obj hnodup _ ih => exact prints_writeOnto_obj isSpelling_spelling hnodup ih

/-- The compact text of a value denotes the value. -/
theorem Integral.denotes {d : Nat} {v : Json} (h : Integral d v) : Denotes d v.write v := by
  obtain ⟨ts, hderives, hspelling⟩ := h.writes
  have htext := hspelling [] [] .nil
  rw [List.append_nil] at htext
  exact ⟨ts, htext, hderives⟩

/-! ## The text of a list -/

mutual

/-- The text behind a value does not change how the value is written. -/
theorem writeOnto_append (v : Json) (s t : List Char) :
    writeOnto v (s ++ t) = writeOnto v s ++ t := by
  match v with
  | null => rfl
  | bool b => simp [writeOnto]
  | int i => simp [writeOnto]
  | float d => simp [writeOnto]
  | str text => simp [writeOnto]
  | arr [] => rfl
  | arr (item :: items) =>
    simp only [writeOnto, List.cons_append, ← writeOnto_append item, ← writeItemsOnto_append items]
  | obj [] => rfl
  | obj ((name, item) :: fields) =>
    simp only [writeOnto, List.cons_append, List.append_assoc, ← writeOnto_append item,
      ← writeFieldsOnto_append fields]

theorem writeItemsOnto_append (vs : List Json) (s t : List Char) :
    writeItemsOnto vs (s ++ t) = writeItemsOnto vs s ++ t := by
  match vs with
  | [] => rfl
  | item :: items =>
    simp only [writeItemsOnto, List.cons_append, ← writeOnto_append item,
      ← writeItemsOnto_append items]

theorem writeFieldsOnto_append (fs : List (String × Json)) (s t : List Char) :
    writeFieldsOnto fs (s ++ t) = writeFieldsOnto fs s ++ t := by
  match fs with
  | [] => rfl
  | (name, item) :: fields =>
    simp only [writeFieldsOnto, List.cons_append, List.append_assoc, ← writeOnto_append item,
      ← writeFieldsOnto_append fields]

end

theorem writeOnto_eq_append (v : Json) (rest : List Char) : writeOnto v rest = v.write ++ rest :=
  writeOnto_append v [] rest

/-- Values with commas between them. -/
def writeList (vs : List Json) : List Char :=
  [','].intercalate (vs.map write)

theorem writeOnto_writeItemsOnto (v : Json) (vs : List Json) (rest : List Char) :
    writeOnto v (writeItemsOnto vs rest) = writeList (v :: vs) ++ rest := by
  induction vs generalizing v with
  | nil => rw [writeItemsOnto, writeOnto_eq_append, writeList, List.map_singleton,
      List.intercalate_singleton]
  | cons w vs ih =>
    rw [writeItemsOnto, ih, writeOnto_eq_append]
    simp [writeList]

/-- A list is written as its items between brackets. -/
theorem write_arr (vs : List Json) : (arr vs).write = '[' :: (writeList vs ++ [']']) := by
  cases vs with
  | nil => rfl
  | cons v vs => rw [write, writeOnto, writeOnto_writeItemsOnto]

end ShellQuery.Json
