import ShellQuery.Proofs.Entries
import ShellQuery.Proofs.Text.Digits
import ShellQuery.Proofs.Text.Names
import ShellQuery.Proofs.Toml.Grammar

/-!
# Reading plain TOML documents

The reader takes off the front of a text what the grammar of plain documents allows: characters and
quoted texts, names, numbers and values, the end of a line, and a line.  Each law leaves open what
comes behind, as far as that cannot be taken for more of the same (`EndsRun`).

`Draft.add` says what a line does to the tables that have been read so far.  The main statement is
`parse?_isDocument`: a plain document is read as its tables.
-/

namespace ShellQuery.Toml

/-! ## Runs of characters -/

/-- A run of characters of the class ends in front of the text. -/
def EndsRun (p : Char → Bool) (rest : List Char) : Prop :=
  ∀ c ∈ rest.head?, p c = false

theorem ne_of_class {p : Char → Bool} {c d : Char} (hc : p c = true) (hd : p d = false) :
    c ≠ d := by
  rintro rfl
  rw [hc] at hd
  cases hd

theorem span_append {p : Char → Bool} {s rest : List Char} (hs : ∀ c ∈ s, p c = true)
    (hrest : EndsRun p rest) : (s ++ rest).span p = (s, rest) := by
  cases rest with
  | nil => rw [List.append_nil, Text.span_of_forall hs]
  | cons c r => exact Text.span_append_cons hs (hrest c rfl)

/-- The text does not start with space. -/
abbrev NoSpace (s : List Char) : Prop :=
  EndsRun isSpace s

/-- A text does not start with space when its first character is of a class without blank and tab. -/
theorem noSpace_of_head {p : Char → Bool} {t : List Char} (h : ∃ c r, t = c :: r ∧ p c = true)
    (hblank : p ' ' = false) (htab : p '\t' = false) (rest : List Char) : NoSpace (t ++ rest) := by
  obtain ⟨c, r, rfl, hc⟩ := h
  rintro d ⟨⟩
  simp [isSpace, ne_of_class hc hblank, ne_of_class hc htab]

theorem dropSpace_append {gap s : List Char} (hgap : IsGap gap) (hs : NoSpace s) :
    dropSpace (gap ++ s) = s := by
  rw [dropSpace, List.dropWhile_append_of_pos hgap]
  cases s with
  | nil => rfl
  | cons c r => rw [List.dropWhile_cons_of_neg (by simp [hs c rfl])]

theorem dropSpace_eq_self {s : List Char} (hs : NoSpace s) : dropSpace s = s :=
  @dropSpace_append [] s nofun hs

/-! ## Quoted texts -/

theorem scalar?_toNat (c : Char) : scalar? c.toNat = some c := by
  have hvalid : c.toNat < 0xD800 ∨ (0xDFFF < c.toNat ∧ c.toNat < 0x110000) := c.valid
  rw [scalar?, if_pos hvalid, Char.ofNat_toNat]

theorem readEscape_code {c : Char} {ds : List Char} {count : Nat} (hlength : ds.length = count)
    (hds : Text.natOfHex? ds = some c.toNat) (rest : List Char) :
    readEscape.code count (ds ++ rest) = some (c, rest) := by
  subst hlength
  simp [readEscape.code, hds, scalar?_toNat]

theorem readEscape_short {e c : Char} (he : (e, c) ∈ shortEscapes) (rest : List Char) :
    readEscape (e :: rest) = some (c, rest) := by
  simp only [shortEscapes, List.mem_cons, List.not_mem_nil, or_false, Prod.mk.injEq] at he
  -- one letter after the other
  rcases he with ⟨rfl, rfl⟩ | ⟨rfl, rfl⟩ | ⟨rfl, rfl⟩ | ⟨rfl, rfl⟩ | ⟨rfl, rfl⟩ | ⟨rfl, rfl⟩ |
    ⟨rfl, rfl⟩ <;> rfl

theorem readBasic_charText {c : Char} {s : List Char} (h : CharText c s) (fuel : Nat)
    (rest : List Char) :
    readBasic (fuel + 1) (s ++ rest) =
      (readBasic fuel rest).map fun found => (c :: found.1, found.2) := by
  have hescape : ∀ r, readEscape r = some (c, rest) →
      readBasic (fuel + 1) ('\\' :: r) =
        (readBasic fuel rest).map fun found => (c :: found.1, found.2) := by
    intro r hr
    simp only [readBasic, hr, Option.bind_eq_bind, Option.bind_some]
    cases readBasic fuel rest <;> rfl
  cases h with
  | plain hquote hslash hprint => simp [readBasic, hprint]
  | short he => exact hescape _ (readEscape_short he rest)
  | code4 hlength hds => exact hescape _ (readEscape_code hlength hds rest)
  | code8 hlength hds => exact hescape _ (readEscape_code hlength hds rest)

theorem CharText.length_pos {c : Char} {s : List Char} (h : CharText c s) : 0 < s.length := by
  cases h <;> simp

/-- A text between double quotes is read up to its closing quote.  Each character takes one unit of
    fuel and at least one place. -/
theorem readBasic_basicText {cs t : List Char} (h : BasicText cs t) {fuel : Nat}
    (hfuel : t.length < fuel) (rest : List Char) :
    readBasic fuel (t ++ '"' :: rest) = some (cs, rest) := by
  induction h generalizing fuel with
  | nil =>
    obtain ⟨fuel, rfl⟩ : ∃ n, fuel = n + 1 := ⟨fuel - 1, by omega⟩
    rfl
  | cons hc _ ih =>
    obtain ⟨fuel, rfl⟩ : ∃ n, fuel = n + 1 := ⟨fuel - 1, by omega⟩
    have hpos := hc.length_pos
    rw [List.length_append] at hfuel
    rw [List.append_assoc, readBasic_charText hc, ih (by omega)]
    rfl

theorem readLiteral_isLiteral {cs : List Char} (h : IsLiteral cs) (rest : List Char) :
    readLiteral (cs ++ '\'' :: rest) = some (cs, rest) := by
  induction cs with
  | nil => rfl
  | cons c r ih =>
    obtain ⟨⟨hprint, hquote⟩, hr⟩ := List.forall_mem_cons.mp h
    simp [readLiteral, hprint, ih hr]

theorem readShortText_basic {cs t : List Char} (h : BasicText cs t) (rest : List Char) :
    readShortText ('"' :: (t ++ ['"']) ++ rest) = some (cs, rest) := by
  have hfuel : t.length < (t ++ '"' :: rest).length + 1 := by
    rw [List.length_append]
    omega
  have hread := readBasic_basicText h hfuel rest
  simpa [readShortText] using hread

theorem readShortText_literal {cs : List Char} (h : IsLiteral cs) (rest : List Char) :
    readShortText ('\'' :: (cs ++ ['\'']) ++ rest) = some (cs, rest) := by
  have hread := readLiteral_isLiteral h rest
  simpa [readShortText] using hread

theorem CharText.head {c : Char} {s : List Char} (h : CharText c s) :
    ∃ d r, s = d :: r ∧ d ≠ '"' := by
  cases h with
  | plain hquote => exact ⟨_, _, rfl, hquote⟩
  | short | code4 | code8 => exact ⟨'\\', _, rfl, by decide⟩

/-- Behind the opening quote of a text on one line there are not two more. -/
theorem readText_basic {cs t rest : List Char} (h : BasicText cs t)
    (hrest : EndsRun (· = '"') rest) :
    readText ('"' :: (t ++ ['"']) ++ rest) = some (cs, rest) := by
  rw [← readShortText_basic h rest]
  unfold readText
  split
  · next r heq =>
    simp only [List.cons_append, List.append_assoc, List.nil_append, List.cons.injEq,
      true_and] at heq
    cases h with
    | nil =>
      -- the closing quote of an empty text is followed by another one
      rw [List.nil_append, List.cons.injEq] at heq
      have hquote := hrest '"' (by simp [heq.2])
      simp at hquote
    | cons hc =>
      obtain ⟨d, s, rfl, hd⟩ := hc.head
      simp [hd] at heq
  · next heq => cases heq
  · rfl

theorem readText_literal {cs rest : List Char} (h : IsLiteral cs)
    (hrest : EndsRun (· = '\'') rest) :
    readText ('\'' :: (cs ++ ['\'']) ++ rest) = some (cs, rest) := by
  rw [← readShortText_literal h rest]
  unfold readText
  split
  · next heq => cases heq
  · next r heq =>
    simp only [List.cons_append, List.append_assoc, List.nil_append, List.cons.injEq,
      true_and] at heq
    cases cs with
    | nil =>
      rw [List.nil_append, List.cons.injEq] at heq
      have hquote := hrest '\'' (by simp [heq.2])
      simp at hquote
    | cons c r => simp [(h c List.mem_cons_self).2] at heq
  · rfl

/-! ## Names -/

theorem IsGap.endsRun {p : Char → Bool} {gap rest : List Char} (hgap : IsGap gap)
    (hp : p ' ' = false ∧ p '\t' = false) (hrest : EndsRun p rest) : EndsRun p (gap ++ rest) := by
  cases gap with
  | nil => exact hrest
  | cons c r =>
    intro d hd
    cases hd
    have hc := hgap c List.mem_cons_self
    simp only [isSpace, Bool.or_eq_true, decide_eq_true_eq] at hc
    rcases hc with rfl | rfl
    · exact hp.1
    · exact hp.2

/-- What a name can start with. -/
def startsName (c : Char) : Bool :=
  isBareChar c || c = '"' || c = '\''

theorem NameText.head {name : String} {t : List Char} (h : NameText name t) :
    ∃ c r, t = c :: r ∧ startsName c = true := by
  cases h with
  | bare hne hcs =>
    obtain ⟨c, r, rfl⟩ := List.exists_cons_of_ne_nil hne
    exact ⟨c, r, rfl, by simp [startsName, hcs c]⟩
  | basic => exact ⟨'"', _, rfl, by decide⟩
  | literal => exact ⟨'\'', _, rfl, by decide⟩

theorem NameText.noSpace {name : String} {t : List Char} (h : NameText name t) (rest : List Char) :
    NoSpace (t ++ rest) :=
  noSpace_of_head h.head (by decide) (by decide) rest

/-- A name that is written does not start with a mark. -/
theorem NameText.head_ne {name : String} {t : List Char} (h : NameText name t) {mark : Char}
    (hmark : startsName mark = false) (rest : List Char) : EndsRun (· = mark) (t ++ rest) := by
  obtain ⟨c, r, rfl, hc⟩ := h.head
  have hne : c ≠ mark := ne_of_class hc hmark
  rintro d ⟨⟩
  simp [hne]

theorem readName_append {name : String} {t rest : List Char} (h : NameText name t)
    (hrest : EndsRun isBareChar rest) : readName (t ++ rest) = some (name, rest) := by
  cases h with
  | bare hne hcs =>
    obtain ⟨c, r, rfl⟩ := List.exists_cons_of_ne_nil hne
    have hc := hcs c List.mem_cons_self
    have hquote : readShortText (c :: r ++ rest) = none := by
      unfold readShortText
      split
      · next heq => cases heq; cases hc
      · next heq => cases heq; cases hc
      · rfl
    rw [readName, hquote, span_append hcs hrest]
  | basic h => rw [readName, readShortText_basic h]
  | literal h => rw [readName, readShortText_literal h]

/-- A name in front of a mark is read as a path of one part. -/
theorem readKey_append {name : String} {t gap gap' rest : List Char} {mark : Char}
    (h : NameText name t) (hgap : IsGap gap) (hgap' : IsGap gap')
    (hmark : mark = '=' ∨ mark = ']') :
    readKey (gap ++ (t ++ (gap' ++ mark :: rest))) = some ([name], mark :: rest) := by
  have hclass : isBareChar mark = false ∧ isSpace mark = false ∧ mark ≠ '.' := by
    rcases hmark with rfl | rfl <;> decide
  have hstop : EndsRun isBareChar (gap' ++ mark :: rest) := by
    refine hgap'.endsRun (by decide) ?_
    rintro c hc
    cases hc
    exact hclass.1
  have hspace : NoSpace (mark :: rest) := by
    rintro c hc
    cases hc
    exact hclass.2.1
  rw [readKey, readPath, dropSpace_append hgap (h.noSpace _)]
  simp only [readName_append h hstop, Option.bind_eq_bind, Option.bind_some,
    dropSpace_append hgap' hspace]
  split
  · next heq =>
    cases heq
    exact absurd rfl hclass.2.2
  · rfl

/-! ## Numbers -/

theorem GroupedDigits.head {ds t : List Char} (h : GroupedDigits ds t) :
    ∃ c r, t = c :: r ∧ Text.isDigit c = true := by
  cases h with
  | single hc | digit hc | group hc => exact ⟨_, _, rfl, hc⟩

theorem GroupedDigits.mem {ds t : List Char} (h : GroupedDigits ds t) :
    ∀ c ∈ t, Text.isDigit c = true ∨ c = '_' := by
  induction h with
  | single hc => simp [hc]
  | digit hc _ ih => exact List.forall_mem_cons.mpr ⟨.inl hc, ih⟩
  | group hc _ ih =>
    exact List.forall_mem_cons.mpr ⟨.inl hc, List.forall_mem_cons.mpr ⟨.inr rfl, ih⟩⟩

theorem digits?_groupedDigits {ds t : List Char} (h : GroupedDigits ds t) :
    digits? Text.isDigit t = some ds := by
  induction h with
  | single hc => simp [digits?, hc]
  | digit hc h ih =>
    obtain ⟨d, r, rfl, hd⟩ := h.head
    have hline : d ≠ '_' := ne_of_class hd (by decide)
    rw [digits?.eq_4 _ _ _ _ fun _ _ hd' _ => hline hd', if_pos hc, ih]
    rfl
  | group hc h ih =>
    obtain ⟨d, r, rfl, hd⟩ := h.head
    rw [digits?, if_pos (by simp [hc, hd]), ih]
    rfl

theorem wholeDigits?_groupedDigits {n : Nat} {t : List Char}
    (h : GroupedDigits (Text.natDigits n) t) : wholeDigits? t = some (Text.natDigits n) := by
  rw [wholeDigits?, digits?_groupedDigits h]
  split
  · next c r heq =>
    -- a zero in front of other digits
    have hdigits := Option.some.inj heq
    by_cases hn : n = 0
    · subst hn
      cases hdigits
    · exact absurd (by rw [hdigits]; rfl) (Text.head?_natDigits_ne_zero hn)
  · rfl

theorem NaturalText.mem {n : Nat} {t : List Char} (h : NaturalText n t) :
    ∀ c ∈ t, Text.isDigit c = true ∨ c = '_' ∨ c = '+' := by
  cases h with
  | bare h => exact fun c hc => (h.mem c hc).imp_right .inl
  | plus h =>
    exact List.forall_mem_cons.mpr ⟨.inr (.inr rfl), fun c hc => (h.mem c hc).imp_right .inl⟩

theorem NaturalText.ne_nil {n : Nat} {t : List Char} (h : NaturalText n t) : t ≠ [] := by
  cases h with
  | bare h =>
    obtain ⟨c, r, rfl, -⟩ := h.head
    exact List.cons_ne_nil c r
  | plus => exact List.cons_ne_nil _ _

/-- No letter belongs to a number in decimal notation. -/
theorem NaturalText.not_mem {n : Nat} {t : List Char} (h : NaturalText n t) {c : Char}
    (hc : Text.isDigit c = false ∧ c ≠ '_' ∧ c ≠ '+') : c ∉ t := by
  intro hmem
  obtain hdigit | hline | hplus := h.mem c hmem
  · exact absurd hdigit (by simp [hc.1])
  · exact hc.2.1 hline
  · exact hc.2.2 hplus

theorem dropSign_naturalText {n : Nat} {t : List Char} (h : NaturalText n t) :
    ∃ u, dropSign t = (false, u) ∧ GroupedDigits (Text.natDigits n) u := by
  cases h with
  | bare h =>
    refine ⟨t, ?_, h⟩
    obtain ⟨c, r, rfl, hc⟩ := h.head
    rw [dropSign]
    · rintro r' ⟨⟩
      cases hc
    · rintro r' ⟨⟩
      cases hc
  | plus h => exact ⟨_, rfl, h⟩

theorem integer?_naturalText {n : Nat} {t : List Char} (h : NaturalText n t) :
    integer? t = some (n : Int) := by
  obtain ⟨u, hsign, hdigits⟩ := dropSign_naturalText h
  have hwhole := wholeDigits?_groupedDigits hdigits
  have hmark : ∀ c r, t = '0' :: c :: r → c ∈ t := by
    rintro c r rfl
    simp
  -- a mark of another base is a letter
  rw [integer?, hsign]
  · simp [hwhole, Text.natOfDigits?_natDigits]
  · exact fun r hr => h.not_mem (by decide) (hmark 'x' r hr)
  · exact fun r hr => h.not_mem (by decide) (hmark 'o' r hr)
  · exact fun r hr => h.not_mem (by decide) (hmark 'b' r hr)

theorem scalarValue?_naturalText {n : Nat} {t : List Char} (hn : n < 9223372036854775808)
    (h : NaturalText n t) : scalarValue? t = some (integer n) := by
  have htrue : t ≠ "true".toList := by
    rintro rfl
    exact h.not_mem (c := 't') (by decide) (by decide)
  have hfalse : t ≠ "false".toList := by
    rintro rfl
    exact h.not_mem (c := 'f') (by decide) (by decide)
  have hreach : isReachable n = true := by
    simp only [isReachable, Bool.and_eq_true, decide_eq_true_eq]
    omega
  rw [scalarValue?, if_neg htrue, if_neg hfalse, integer?_naturalText h]
  exact if_pos hreach

/-! ## The end of a line -/

theorem LineBreak.endsRun {p : Char → Bool} {rest s : List Char} (h : LineBreak rest s)
    (hp : p '\n' = false ∧ p '\r' = false) : EndsRun p s := by
  cases h with
  | stop => exact nofun
  | feed =>
    rintro c ⟨⟩
    exact hp.1
  | carriage =>
    rintro c ⟨⟩
    exact hp.2

/-- What follows on a line starts with a line break, with `#` or with space. -/
theorem LineEnd.endsRun {p : Char → Bool} {rest s : List Char} (h : LineEnd rest s)
    (hp : ['\n', '\r', '#', ' ', '\t'].all (!p ·) = true) : EndsRun p s := by
  replace hp : ∀ c ∈ ['\n', '\r', '#', ' ', '\t'], p c = false := by
    simpa only [List.all_eq_true, Bool.not_eq_true'] using hp
  cases h with
  | bare h => exact h.endsRun ⟨hp _ (by decide), hp _ (by decide)⟩
  | comment =>
    rintro c ⟨⟩
    exact hp _ (by decide)
  | space hc _ =>
    rintro c ⟨⟩
    simp only [isSpace, Bool.or_eq_true, decide_eq_true_eq] at hc
    rcases hc with rfl | rfl
    · exact hp _ (by decide)
    · exact hp _ (by decide)

theorem dropComment_append {cs rest s : List Char} (hcs : ∀ c ∈ cs, isPrintable c = true)
    (h : LineBreak rest s) : dropComment ('#' :: (cs ++ s)) = s := by
  have hprint : EndsRun isPrintable s := h.endsRun (by decide)
  rw [dropComment, List.dropWhile_append_of_pos hcs]
  cases s with
  | nil => rfl
  | cons c r => rw [List.dropWhile_cons_of_neg (by simp [hprint c rfl])]

/-- What follows on a line is dropped. -/
theorem dropLineEnd?_lineEnd {rest s : List Char} (h : LineEnd rest s) :
    dropLineEnd? s = some rest := by
  induction h with
  | bare h =>
    rw [dropLineEnd?, dropSpace_eq_self (h.endsRun (by decide))]
    cases h <;> rfl
  | comment hcs h =>
    rw [dropLineEnd?, dropSpace_eq_self (by rintro c ⟨⟩; rfl), dropComment_append hcs h]
    cases h <;> rfl
  | @space c rest s hc _ ih =>
    have hspace : dropSpace (c :: s) = dropSpace s := by
      rw [dropSpace, List.dropWhile_cons_of_pos hc, dropSpace]
    rw [dropLineEnd?, hspace, ← dropLineEnd?, ih]

theorem LineBreak.length_lt {rest s : List Char} (h : LineBreak rest s) (hs : s ≠ []) :
    rest.length < s.length := by
  cases h with
  | stop => exact absurd rfl hs
  | feed => exact Nat.lt_succ_self _
  | carriage => exact Nat.lt_succ_of_lt (Nat.lt_succ_self _)

theorem LineBreak.length_le {rest s : List Char} (h : LineBreak rest s) :
    rest.length ≤ s.length := by
  cases h with
  | stop => exact Nat.le_refl _
  | feed => exact Nat.le_succ _
  | carriage => exact Nat.le_add_right _ 2

theorem LineEnd.length_le {rest s : List Char} (h : LineEnd rest s) : rest.length ≤ s.length := by
  induction h with
  | bare h => exact h.length_le
  | comment _ h =>
    have hle := h.length_le
    rw [List.length_cons, List.length_append]
    omega
  | space _ _ ih => exact Nat.le_succ_of_le ih

/-- Behind the end of a line less is left, unless nothing was left before. -/
theorem LineEnd.length_lt {rest s : List Char} (h : LineEnd rest s) (hs : s ≠ []) :
    rest.length < s.length := by
  cases h with
  | bare h => exact h.length_lt hs
  | comment _ h =>
    have hle := h.length_le
    rw [List.length_cons, List.length_append]
    omega
  | space _ h => exact Nat.lt_succ_of_le h.length_le

/-! ## Values -/

/-- What follows a value on a line does not join a time of day to it. -/
theorem spanScalar_append {w e rest : List Char} (hw : ∀ c ∈ w, isScalarChar c = true)
    (hend : LineEnd rest e) : spanScalar (w ++ e) = (w, e) := by
  have hspan := span_append hw (hend.endsRun (p := isScalarChar) (by decide))
  rw [spanScalar, hspan]
  dsimp only
  split
  · next d r =>
    -- what stands behind a blank is no digit
    have hdigit : Text.isDigit d = false := by
      cases hend with
      | bare h => cases h
      | space _ h => exact h.endsRun (p := Text.isDigit) (by decide) d rfl
    simp [hdigit]
  · rfl

theorem readScalar_append {v : Toml} {w e rest : List Char} (hw : ∀ c ∈ w, isScalarChar c = true)
    (hv : scalarValue? w = some v) (hend : LineEnd rest e) :
    readScalar (w ++ e) = some (v, e) := by
  rw [readScalar, spanScalar_append hw hend]
  dsimp only
  rw [hv]
  rfl

/-- How a value starts tells what kind it is of. -/
theorem readValue_scalar {c : Char} {r : List Char} (hc : isScalarChar c = true)
    (fuel depth : Nat) : readValue (fuel + 1) depth (c :: r) = readScalar (c :: r) := by
  have hquote : c ≠ '"' := ne_of_class hc (by decide)
  have hsingle : c ≠ '\'' := ne_of_class hc (by decide)
  have hbracket : c ≠ '[' := ne_of_class hc (by decide)
  have hbrace : c ≠ '{' := ne_of_class hc (by decide)
  rw [readValue.eq_def]
  dsimp only
  rw [if_neg (by simp [hquote, hsingle]), if_neg hbracket, if_neg hbrace]

theorem readValue_quoted {c : Char} {r cs rest : List Char} (hc : c = '"' ∨ c = '\'')
    (hread : readText (c :: r) = some (cs, rest)) (fuel depth : Nat) :
    readValue (fuel + 1) depth (c :: r) = some (string (String.ofList cs), rest) := by
  rw [readValue.eq_def]
  dsimp only
  rw [if_pos hc, hread]
  rfl

theorem isScalarChar_of_naturalText {n : Nat} {t : List Char} (h : NaturalText n t) :
    ∀ c ∈ t, isScalarChar c = true := by
  intro c hc
  obtain hdigit | rfl | rfl := h.mem c hc
  · have hdigits : "0123456789".toList.all isScalarChar = true := by decide
    exact List.all_eq_true.mp hdigits c (Text.mem_of_isDigit hdigit)
  · decide
  · decide

/-- A value that is not quoted is read up to what follows it on its line. -/
theorem readValue_word {v : Toml} {w e rest : List Char} (hne : w ≠ [])
    (hw : ∀ c ∈ w, isScalarChar c = true) (hv : scalarValue? w = some v) (hend : LineEnd rest e)
    (fuel depth : Nat) : readValue (fuel + 1) depth (w ++ e) = some (v, e) := by
  have hread := readScalar_append hw hv hend
  obtain ⟨c, r, rfl⟩ := List.exists_cons_of_ne_nil hne
  rw [← hread]
  exact readValue_scalar (hw c List.mem_cons_self) fuel depth

/-- A value is read up to what follows it on its line. -/
theorem readValue_valueText {v : Toml} {u e rest : List Char} (h : ValueText v u)
    (hend : LineEnd rest e) (fuel depth : Nat) :
    readValue (fuel + 1) depth (u ++ e) = some (v, e) := by
  cases h with
  | basic h =>
    exact readValue_quoted (.inl rfl) (readText_basic h (hend.endsRun (by decide))) fuel depth
  | literal h =>
    exact readValue_quoted (.inr rfl) (readText_literal h (hend.endsRun (by decide))) fuel depth
  | integer hn h =>
    exact readValue_word h.ne_nil (isScalarChar_of_naturalText h) (scalarValue?_naturalText hn h)
      hend fuel depth
  | true =>
    exact readValue_word (by decide) (List.all_eq_true.mp (by decide)) rfl hend fuel depth
  | false =>
    exact readValue_word (by decide) (List.all_eq_true.mp (by decide)) rfl hend fuel depth

/-- A value that is written starts with no space. -/
theorem ValueText.noSpace {v : Toml} {u : List Char} (h : ValueText v u) (rest : List Char) :
    NoSpace (u ++ rest) := by
  cases h with
  | basic | literal | true | false =>
    rintro c ⟨⟩
    decide
  | integer _ h =>
    obtain ⟨c, r, rfl⟩ := List.exists_cons_of_ne_nil h.ne_nil
    have hc := isScalarChar_of_naturalText h c List.mem_cons_self
    exact noSpace_of_head ⟨c, r, rfl, hc⟩ (by decide) (by decide) rest

/-! ## Lines -/

/-- What a line does to a document that is being read. -/
def Draft.add (draft : Draft) : Line → Option Draft
  | .header name => (openTable [name] draft.entries).map fun entries => ⟨[name], entries⟩
  | .assignment name v =>
    (modifyAt (insertDotted [] name v) draft.path draft.entries).map fun entries =>
      ⟨draft.path, entries⟩

/-- A header is read up to the line that follows. -/
theorem readHeader_append {name : String} {t gap gap' e rest : List Char} (hname : NameText name t)
    (hgap : IsGap gap) (hgap' : IsGap gap') (hend : LineEnd rest e) (draft : Draft) :
    readHeader draft (gap ++ (t ++ (gap' ++ ']' :: e))) =
      (draft.add (.header name)).map fun draft => (draft, rest) := by
  have hkey : readKey (gap ++ (t ++ (gap' ++ ']' :: e))) = some ([name], ']' :: e) :=
    readKey_append hname hgap hgap' (.inr rfl)
  simp only [readHeader, hkey, Calendar.expect, dropLineEnd?_lineEnd hend, Draft.add,
    Option.bind_eq_bind, Option.bind_some, if_true]
  cases openTable [name] draft.entries <;> rfl

/-- A line with a value is read up to the line that follows. -/
theorem readAssignment_append {name : String} {v : Toml} {t u gap gap' e rest : List Char}
    (hname : NameText name t) (hvalue : ValueText v u) (hgap : IsGap gap) (hgap' : IsGap gap')
    (hend : LineEnd rest e) (draft : Draft) :
    readAssignment draft (t ++ (gap ++ '=' :: (gap' ++ (u ++ e)))) =
      (draft.add (.assignment name v)).map fun draft => (draft, rest) := by
  have hkey : readKey (t ++ (gap ++ '=' :: (gap' ++ (u ++ e)))) =
      some ([name], '=' :: (gap' ++ (u ++ e))) :=
    @readKey_append name t [] gap _ '=' hname nofun hgap (.inl rfl)
  have hspace : dropSpace (gap' ++ (u ++ e)) = u ++ e := dropSpace_append hgap' (hvalue.noSpace e)
  simp only [readAssignment, hkey, Calendar.expect, hspace, readValue_valueText hvalue hend,
    dropLineEnd?_lineEnd hend, Draft.add, Option.bind_eq_bind, Option.bind_some, if_true,
    List.dropLast_singleton, List.getLast?_singleton, Option.getD_some]
  cases modifyAt (insertDotted [] name v) draft.path draft.entries <;> rfl

/-- A line is read up to the line that follows. -/
theorem readLine_lineText {l : Line} {t e rest : List Char} (h : LineText l t)
    (hend : LineEnd rest e) (draft : Draft) :
    readLine draft (t ++ e) = (draft.add l).map fun draft => (draft, rest) := by
  cases h with
  | @header name t gap gap' hname hgap hgap' =>
    have hbracket : EndsRun (· = '[') (gap ++ (t ++ (gap' ++ ']' :: e))) :=
      hgap.endsRun (by decide) (hname.head_ne (by decide) _)
    rw [← readHeader_append hname hgap hgap' hend]
    simp only [List.cons_append, List.append_assoc, List.nil_append]
    unfold readLine
    split
    · next r heq =>
      -- behind the bracket there is space or the name, and not another bracket
      have hno := hbracket '[' (by rw [(List.cons.inj heq).2]; rfl)
      simp at hno
    · next heq =>
      cases heq
      rfl
    · next hno => exact absurd rfl (hno _)
  | @assignment name v t u gap gap' hname hvalue hgap hgap' =>
    rw [← readAssignment_append hname hvalue hgap hgap' hend]
    simp only [List.cons_append, List.append_assoc]
    obtain ⟨c, r, rfl, hc⟩ := hname.head
    have hbracket : c ≠ '[' := ne_of_class hc (by decide)
    rw [List.cons_append, readLine]
    · exact fun r' heq => hbracket (List.cons.inj heq).1
    · exact fun r' heq => hbracket (List.cons.inj heq).1

/-- What a line can start with. -/
def startsLine (c : Char) : Bool :=
  startsName c || c = '['

theorem LineText.head {l : Line} {t : List Char} (h : LineText l t) :
    ∃ c r, t = c :: r ∧ startsLine c = true := by
  cases h with
  | header => exact ⟨'[', _, rfl, by decide⟩
  | assignment hname =>
    obtain ⟨c, r, rfl, hc⟩ := hname.head
    exact ⟨c, _, rfl, by simp [startsLine, hc]⟩

theorem LineText.noSpace {l : Line} {t : List Char} (h : LineText l t) (rest : List Char) :
    NoSpace (t ++ rest) :=
  noSpace_of_head h.head (by decide) (by decide) rest

/-- A line that says something is not blank. -/
theorem dropLineEnd?_lineText {l : Line} {t indent : List Char} (h : LineText l t)
    (hindent : IsGap indent) (e : List Char) : dropLineEnd? (indent ++ (t ++ e)) = none := by
  rw [dropLineEnd?, dropSpace_append hindent (h.noSpace e)]
  obtain ⟨c, r, rfl, hc⟩ := h.head
  have hcomment : c ≠ '#' := ne_of_class hc (by decide)
  have hfeed : c ≠ '\n' := ne_of_class hc (by decide)
  have hcarriage : c ≠ '\r' := ne_of_class hc (by decide)
  have hdrop : dropComment (c :: (r ++ e)) = c :: (r ++ e) := by
    rw [dropComment]
    exact fun r' heq => hcomment (List.cons.inj heq).1
  rw [List.cons_append, hdrop]
  show dropBreak? (c :: (r ++ e)) = none
  rw [dropBreak?]
  · exact fun r' heq => hfeed (List.cons.inj heq).1
  · exact fun r' heq => hcarriage (List.cons.inj heq).1

/-! ## Documents -/

theorem readLines_of_end {s rest : List Char} (hs : s ≠ []) (hend : dropLineEnd? s = some rest)
    (fuel : Nat) (draft : Draft) :
    readLines (fuel + 1) draft s = readLines fuel draft rest := by
  rw [readLines, hend]
  exact hs

theorem readLines_of_line {s : List Char} (hs : s ≠ []) (hline : dropLineEnd? s = none)
    (fuel : Nat) (draft : Draft) :
    readLines (fuel + 1) draft s =
      (readLine draft (dropSpace s)).bind fun found => readLines fuel found.1 found.2 := by
  rw [readLines, hline]
  · rfl
  · exact hs

/-- A text is read as the lines that it spells.  Each unit of fuel pays for one line or one blank
    line, either of which takes at least one place. -/
theorem readLines_spells {lines : List Line} {s : List Char} (h : Spells lines s) {fuel : Nat}
    (hfuel : s.length ≤ fuel) (draft : Draft) :
    readLines fuel draft s = (lines.foldlM Draft.add draft).map Draft.entries := by
  induction h generalizing fuel draft with
  | nil => cases fuel <;> rfl
  | @blank lines rest s hend h ih =>
    by_cases hs : s = []
    · subst hs
      obtain rfl := List.eq_nil_of_length_eq_zero (Nat.le_zero.mp hend.length_le)
      exact ih hfuel draft
    · have hlt := hend.length_lt hs
      obtain ⟨fuel, rfl⟩ : ∃ n, fuel = n + 1 := ⟨fuel - 1, by omega⟩
      rw [readLines_of_end hs (dropLineEnd?_lineEnd hend)]
      exact ih (by omega) draft
  | @line l lines indent t e rest hindent hl hend h ih =>
    have hle := hend.length_le
    obtain ⟨c, r, ht, -⟩ := hl.head
    have hpos : 0 < t.length := by simp [ht]
    rw [List.length_append, List.length_append] at hfuel
    obtain ⟨fuel, rfl⟩ : ∃ n, fuel = n + 1 := ⟨fuel - 1, by omega⟩
    have hs : indent ++ (t ++ e) ≠ [] := by simp [ht]
    rw [readLines_of_line hs (dropLineEnd?_lineText hl hindent e),
      dropSpace_append hindent (hl.noSpace e), readLine_lineText hl hend, List.foldlM_cons]
    cases draft.add l with
    | none => rfl
    | some next => exact ih (by omega) next

/-! ## Tables -/

/-- The table of a section while the document is read. -/
def Section.node (s : Section) : String × Node :=
  (s.1, .table .opened (s.2.map fun e => (e.1, .value e.2)))

theorem keys_map_node (sections : List Section) :
    Entries.keys (sections.map Section.node) = Entries.keys sections := by
  simp [Entries.keys, Section.node]

/-- A new name is added to the open table, which is the last one. -/
theorem add_assignment {name key : String} {done entries : Entries Node}
    (hname : name ∉ Entries.keys done) (hkey : key ∉ Entries.keys entries) (v : Toml) :
    Draft.add ⟨[name], done ++ [(name, .table .opened entries)]⟩ (.assignment key v) =
      some ⟨[name], done ++ [(name, .table .opened (entries ++ [(key, .value v)]))]⟩ := by
  have hfind : Entries.find? (done ++ [(name, Node.table .opened entries)]) name =
      some (.table .opened entries) := by
    rw [Entries.find?_append_singleton _ hname, if_pos rfl]
  have hnew : Entries.has entries key = false := by
    rw [Entries.has, Entries.find?_eq_none_iff.mpr hkey]
    rfl
  simp [Draft.add, modifyAt, hfind, insertDotted, hnew, Entries.put_append_singleton hname]

/-- The lines of a table add its entries in their order. -/
theorem foldlM_assignments {name : String} {done : Entries Node} (hname : name ∉ Entries.keys done)
    {entries : Entries Toml} {before : Entries Node}
    (hnodup : (Entries.keys before ++ Entries.keys entries).Nodup) :
    (entries.map fun e => Line.assignment e.1 e.2).foldlM Draft.add
        ⟨[name], done ++ [(name, .table .opened before)]⟩ =
      some ⟨[name], done ++
        [(name, .table .opened (before ++ entries.map fun e => (e.1, .value e.2)))]⟩ := by
  induction entries generalizing before with
  | nil => simp
  | cons e rest ih =>
    obtain ⟨key, v⟩ := e
    have hkey : key ∉ Entries.keys before := fun hmem =>
      (List.nodup_append.mp hnodup).2.2 key hmem key List.mem_cons_self rfl
    have hrest : (Entries.keys (before ++ [(key, Node.value v)]) ++ Entries.keys rest).Nodup := by
      simpa [Entries.keys] using hnodup
    rw [List.map_cons, List.foldlM_cons, add_assignment hname hkey v]
    have hadded := ih hrest
    rwa [List.append_assoc] at hadded

theorem add_header {name : String} {entries : Entries Node} (hname : name ∉ Entries.keys entries)
    (path : List String) :
    Draft.add ⟨path, entries⟩ (.header name) =
      some ⟨[name], entries ++ [(name, .table .opened [])]⟩ := by
  simp [Draft.add, openTable, Entries.find?_eq_none_iff.mpr hname]

/-- The lines of a table with a new name add the table. -/
theorem foldlM_section {s : Section} {done : List Section} (path : List String)
    (hname : s.1 ∉ Entries.keys done) (hentries : (Entries.keys s.2).Nodup) :
    s.lines.foldlM Draft.add ⟨path, done.map Section.node⟩ =
      some ⟨[s.1], (done ++ [s]).map Section.node⟩ := by
  have hnode : s.1 ∉ Entries.keys (done.map Section.node) := by rwa [keys_map_node]
  have hrows := @foldlM_assignments s.1 _ hnode s.2 [] hentries
  rw [Section.lines, List.foldlM_cons, add_header hnode path]
  rw [List.map_append, List.map_singleton]
  exact hrows

/-- The lines of tables with new names add the tables in their order. -/
theorem foldlM_sections {sections done : List Section} (path : List String)
    (hnodup : (Entries.keys (done ++ sections)).Nodup)
    (hentries : ∀ e ∈ sections, (Entries.keys e.2).Nodup) :
    ((sections.flatMap Section.lines).foldlM Draft.add ⟨path, done.map Section.node⟩).map
        Draft.entries = some ((done ++ sections).map Section.node) := by
  induction sections generalizing done path with
  | nil => simp
  | cons s rest ih =>
    obtain ⟨hs, hrest⟩ := List.forall_mem_cons.mp hentries
    have hkeys : (Entries.keys done ++ Entries.keys (s :: rest)).Nodup := by
      rwa [Entries.keys, List.map_append] at hnodup
    have hname : s.1 ∉ Entries.keys done := fun hmem =>
      (List.nodup_append.mp hkeys).2.2 s.1 hmem s.1 List.mem_cons_self rfl
    rw [List.append_cons] at hnodup ⊢
    rw [List.flatMap_cons, List.foldlM_append, foldlM_section path hname hs]
    exact ih [s.1] hnodup hrest

theorem nodesToToml_sections (sections : List Section) :
    nodesToToml (sections.map Section.node) = sections.map fun e => (e.1, table e.2) := by
  have hvalues : ∀ entries : Entries Toml,
      nodesToToml (entries.map fun e => (e.1, .value e.2)) = entries := by
    intro entries
    induction entries with
    | nil => rfl
    | cons e rest ih => rw [List.map_cons, nodesToToml, ih, Node.toToml]
  induction sections with
  | nil => rfl
  | cons s rest ih =>
    rw [List.map_cons, Section.node, nodesToToml, ih, Node.toToml, hvalues]
    rfl

/-! ## Whole documents -/

/-- A document does not start with a byte order mark of its own. -/
theorem Spells.dropByteMark {lines : List Line} {s : List Char} (h : Spells lines s) :
    dropByteMark s = s := by
  have hstart : EndsRun (· = '\uFEFF') s := by
    cases h with
    | nil => exact nofun
    | blank hend => exact hend.endsRun (by decide)
    | line hindent hl =>
      obtain ⟨c, r, rfl, hc⟩ := hl.head
      have hmark : c ≠ '\uFEFF' := ne_of_class hc (by decide)
      refine hindent.endsRun (by decide) ?_
      rintro d ⟨⟩
      simp [hmark]
  unfold Toml.dropByteMark
  split
  · next r =>
    have hmark := hstart '\uFEFF' rfl
    simp at hmark
  · rfl

/-- A plain document is read as its tables. -/
theorem parse?_isDocument {sections : List Section} {s : String}
    (h : IsDocument sections s.toList) :
    parse? s = some (sections.map fun e => (e.1, table e.2)) := by
  obtain ⟨body, hbody, hs⟩ := h.text
  have hdrop : dropByteMark s.toList = body := by
    rcases hs with hs | hs
    · rw [hs, hbody.dropByteMark]
    · rw [hs, dropByteMark]
  have hlines := readLines_spells hbody (Nat.le_succ _) ⟨[], []⟩
  have hsections := @foldlM_sections sections [] [] h.nodup h.nodup_entries
  rw [List.map_nil] at hsections
  rw [parse?, hdrop, hlines, hsections, Option.map_some, List.nil_append, nodesToToml_sections]

end ShellQuery.Toml
