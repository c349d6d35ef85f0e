import Mathlib.Data.List.Chain
import Mathlib.Data.List.TakeDrop
import ShellQuery.Proofs.Json.Grammar

/-!
# Reading lexemes

The lexer takes off the front of a text exactly what the lexical grammar allows.  Each part comes
in two halves: what a reader returns is written by the part of the text that it took, and what is
written is read back.  For numbers the second half needs a text that does not go on as a number,
so it speaks of the character behind: see `Stops`.
-/

namespace ShellQuery.Json

/-! ## Strings -/

private theorem extend_eq_some {c : Char} {found : Option (List Char × List Char)}
    {cs rest : List Char} :
    readString.extend c found = some (cs, rest) ↔
      ∃ tail, found = some (tail, rest) ∧ cs = c :: tail := by
  cases found with
  | none => simp [readString.extend]
  | some p =>
    obtain ⟨tail, rest'⟩ := p
    simp only [readString.extend, Option.some.injEq, Prod.mk.injEq]
    constructor
    · rintro ⟨rfl, rfl⟩
      exact ⟨tail, ⟨rfl, rfl⟩, rfl⟩
    · rintro ⟨tail', ⟨rfl, rfl⟩, rfl⟩
      exact ⟨rfl, rfl⟩

/-- One written character in front of a string body that has been read. -/
private theorem stringText_extend {c : Char} {l : List Char} (hl : CharText c l)
    {r cs rest : List Char}
    (ih : ∀ cs rest, readString r = some (cs, rest) →
      ∃ body, r = body ++ '"' :: rest ∧ StringText cs body)
    (h : readString.extend c (readString r) = some (cs, rest)) :
    ∃ body, l ++ r = body ++ '"' :: rest ∧ StringText cs body := by
  obtain ⟨tail, htail, rfl⟩ := extend_eq_some.mp h
  obtain ⟨body, rfl, hbody⟩ := ih tail rest htail
  exact ⟨l ++ body, by simp, .cons hl hbody⟩

/-- A string body that is read is written by the text before the closing quote. -/
theorem readString_sound {s cs rest : List Char} (h : readString s = some (cs, rest)) :
    ∃ body, s = body ++ '"' :: rest ∧ StringText cs body := by
  fun_induction readString s generalizing cs rest with
  | case1 => cases h
  | case2 r =>
    cases h
    exact ⟨[], rfl, .nil⟩
  | case3 => cases h
  | case4 a b c d r u hu ch hch ih => exact stringText_extend (.unit hu hch) (fun _ _ => ih) h
  | case5 a b c d u hu hnone a' b' c' d' r ch hch ih =>
    -- the first unit is half a character, the second its other half
    obtain ⟨low, hlow, hpair⟩ := Option.bind_eq_some_iff.mp hch
    exact stringText_extend (.pair hu hlow hpair) (fun _ _ => ih) h
  | case6 => cases h
  | case7 => cases h
  | case8 e r _ ch he ih => exact stringText_extend (.escape he) (fun _ _ => ih) h
  | case9 => cases h
  | case10 => cases h
  | case11 c r hquote _ _ hplain ih =>
    have hprint : 0x20 ≤ c.toNat := Nat.le_of_not_lt fun hlt => hplain (.inl hlt)
    exact stringText_extend (.plain hquote (fun hc => hplain (.inr hc)) hprint) (fun _ _ => ih) h

/-- A code unit of a pair is no character by itself. -/
private theorem unitChar?_of_pairChar? {high low : Nat} {ch : Char}
    (h : pairChar? high low = some ch) : unitChar? high = none := by
  unfold pairChar? at h
  split at h
  · next hrange =>
    have hhigh : 0xD800 ≤ high ∧ high ≤ 0xDFFF := by omega
    simp [unitChar?, hhigh]
  · cases h

/-- A written character is read off the front of a string body. -/
private theorem readString_charText {c : Char} {l : List Char} (h : CharText c l)
    (r : List Char) : readString (l ++ r) = readString.extend c (readString r) := by
  cases h with
  | plain hquote hslash hprint =>
    -- the last rule of the reader applies: the character starts no other one
    have hplain : ¬ (c.toNat < 0x20 ∨ c = '\\') := by
      rintro (hlt | hc)
      · exact absurd hprint (Nat.not_le_of_lt hlt)
      · exact hslash hc
    rw [List.singleton_append, readString, if_neg hplain]
    · exact hquote
    · exact fun _ _ _ _ _ hc => absurd hc hslash
    · exact fun _ _ hc => absurd hc hslash
  | @escape e c he =>
    -- the letter of a unit is no escape by itself
    have hu : e ≠ 'u' := by
      rintro rfl
      simp [plainEscape?] at he
    rw [List.cons_append, List.singleton_append, readString]
    · simp only [he]
    · exact fun _ _ _ _ _ hc => absurd hc hu
  | unit hu hch => simp [readString, hu, hch]
  | pair hhigh hlow hch =>
    -- were the first unit a character, the second would be left over
    have hnone := unitChar?_of_pairChar? hch
    simp [readString, hhigh, hlow, hch, hnone]

/-- What is written between quotes is read back, whatever stands behind the closing quote. -/
theorem readString_complete {cs body : List Char} (h : StringText cs body) (rest : List Char) :
    readString (body ++ '"' :: rest) = some (cs, rest) := by
  induction h with
  | nil => rfl
  | @cons c cs s t hc _ ih =>
    rw [List.append_assoc, readString_charText hc, ih]
    rfl

/-! ## Numbers -/

/-- The text does not go on with a digit. -/
def NoDigit (s : List Char) : Prop :=
  ∀ c ∈ s.head?, Text.isDigit c = false

/-- The text goes on with neither a digit nor a point. -/
def NoFraction (s : List Char) : Prop :=
  ∀ c ∈ s.head?, Text.isDigit c = false ∧ c ≠ '.'

/-- The text goes on with nothing that could belong to a number. -/
def Stops (s : List Char) : Prop :=
  ∀ c ∈ s.head?, Text.isDigit c = false ∧ c ≠ '.' ∧ c ≠ 'e' ∧ c ≠ 'E'

theorem NoFraction.noDigit {s : List Char} (h : NoFraction s) : NoDigit s :=
  fun c hc => (h c hc).1

theorem Stops.noFraction {s : List Char} (h : Stops s) : NoFraction s :=
  fun c hc => ⟨(h c hc).1, (h c hc).2.1⟩

/-- A number may stand at the end of a text. -/
theorem stops_nil : Stops [] := by
  intro c hc
  cases hc

theorem IsDigits.head {ds : List Char} (h : IsDigits ds) :
    ∃ d r, ds = d :: r ∧ Text.isDigit d = true := by
  obtain ⟨hne, hall⟩ := h
  cases ds with
  | nil => exact absurd rfl hne
  | cons d r => exact ⟨d, r, rfl, hall d List.mem_cons_self⟩

/-- A digit is a different character than one that is no digit. -/
private theorem ne_of_isDigit {c d : Char} (hc : Text.isDigit c = true)
    (hd : Text.isDigit d = false) : c ≠ d := by
  rintro rfl
  rw [hc] at hd
  cases hd

theorem spanDigits_sound {s ds rest : List Char} (h : spanDigits s = (ds, rest)) :
    s = ds ++ rest ∧ ∀ c ∈ ds, Text.isDigit c = true := by
  rw [spanDigits, List.span_eq_takeWhile_dropWhile] at h
  cases h
  exact ⟨List.takeWhile_append_dropWhile.symm, List.all_eq_true.mp List.all_takeWhile⟩

theorem spanDigits_complete {ds rest : List Char} (hds : ∀ c ∈ ds, Text.isDigit c = true)
    (hrest : NoDigit rest) : spanDigits (ds ++ rest) = (ds, rest) := by
  have hstop : rest.takeWhile Text.isDigit = [] ∧ rest.dropWhile Text.isDigit = rest := by
    cases rest with
    | nil => exact ⟨rfl, rfl⟩
    | cons c r =>
      have hc : Text.isDigit c = false := hrest c rfl
      simp [hc]
  rw [spanDigits, List.span_eq_takeWhile_dropWhile, List.takeWhile_append_of_pos hds,
    List.dropWhile_append_of_pos hds, hstop.1, hstop.2, List.append_nil]

theorem readWhole_sound {s w rest : List Char} (h : readWhole s = some (w, rest)) :
    s = w ++ rest ∧ IsWhole w := by
  unfold readWhole at h
  split at h
  · cases h
    exact ⟨rfl, .inl rfl⟩
  · next s hzero =>
    split at h
    · cases h
    · next hempty =>
      -- the run is not empty and, as the first rule did not apply, does not start with a zero
      obtain ⟨rfl, hall⟩ := spanDigits_sound (Option.some.inj h)
      have hspan : spanDigits (w ++ rest) = (w, rest) := Option.some.inj h
      have hne : w ≠ [] := by
        rintro rfl
        exact hempty rest hspan
      have hhead : w.head? ≠ some '0' := by
        intro hw
        obtain ⟨r, rfl⟩ := List.head?_eq_some_iff.mp hw
        exact hzero (r ++ rest) rfl
      exact ⟨rfl, .inr ⟨⟨hne, hall⟩, hhead⟩⟩

theorem readWhole_complete {w rest : List Char} (h : IsWhole w) (hrest : NoDigit rest) :
    readWhole (w ++ rest) = some (w, rest) := by
  rcases h with rfl | ⟨hdigits, hhead⟩
  · rfl
  · have hspan := spanDigits_complete hdigits.2 hrest
    obtain ⟨d, r, rfl, -⟩ := hdigits.head
    rw [List.cons_append] at hspan ⊢
    rw [readWhole, hspan]
    -- the rule for a lone zero does not apply
    intro r' hr
    cases hr
    exact hhead rfl

theorem readFraction_sound {s rest : List Char} {f : Option (List Char)}
    (h : readFraction s = some (f, rest)) : ∃ ft, s = ft ++ rest ∧ FractionText f ft := by
  unfold readFraction at h
  split at h
  · next r =>
    split at h
    · cases h
    · next ds rest' hempty hspan =>
      cases h
      obtain ⟨rfl, hall⟩ := spanDigits_sound hspan
      exact ⟨'.' :: ds, rfl, .present ⟨hempty, hall⟩⟩
  · cases h
    exact ⟨[], rfl, .absent⟩

theorem readFraction_complete {f : Option (List Char)} {ft rest : List Char}
    (h : FractionText f ft) (hrest : NoFraction rest) :
    readFraction (ft ++ rest) = some (f, rest) := by
  cases h with
  | absent =>
    rw [List.nil_append, readFraction]
    rintro r rfl
    exact (hrest '.' rfl).2 rfl
  | @present ds hds =>
    have hspan := spanDigits_complete hds.2 hrest.noDigit
    rw [List.cons_append, readFraction, hspan]
    split
    · next hempty => exact absurd (Prod.mk.inj hempty).1 hds.1
    · next hfound =>
      cases hfound
      rfl

private theorem readPowerDigits_sound {negative : Bool} {s rest : List Char}
    {p : Option (Bool × List Char)} (h : readPowerDigits negative s = some (p, rest)) :
    ∃ ds, s = ds ++ rest ∧ p = some (negative, ds) ∧ IsDigits ds := by
  unfold readPowerDigits at h
  split at h
  · cases h
  · next ds rest' hempty hspan =>
    cases h
    obtain ⟨rfl, hall⟩ := spanDigits_sound hspan
    exact ⟨ds, rfl, rfl, hempty, hall⟩

private theorem readPowerDigits_complete {negative : Bool} {ds rest : List Char}
    (hds : IsDigits ds) (hrest : NoDigit rest) :
    readPowerDigits negative (ds ++ rest) = some (some (negative, ds), rest) := by
  rw [readPowerDigits, spanDigits_complete hds.2 hrest]
  split
  · next hempty => exact absurd (Prod.mk.inj hempty).1 hds.1
  · next hfound =>
    cases hfound
    rfl

theorem readPower_sound {s rest : List Char} {p : Option (Bool × List Char)}
    (h : readPower s = some (p, rest)) : ∃ pt, s = pt ++ rest ∧ PowerText p pt := by
  unfold readPower at h
  split at h
  · next c r =>
    split at h
    · next hmark =>
      split at h
      · obtain ⟨ds, rfl, rfl, hds⟩ := readPowerDigits_sound h
        exact ⟨c :: '+' :: ds, rfl, .plus hmark hds⟩
      · obtain ⟨ds, rfl, rfl, hds⟩ := readPowerDigits_sound h
        exact ⟨c :: '-' :: ds, rfl, .minus hmark hds⟩
      · obtain ⟨ds, rfl, rfl, hds⟩ := readPowerDigits_sound h
        exact ⟨c :: ds, rfl, .bare hmark hds⟩
    · cases h
      exact ⟨[], rfl, .absent⟩
  · cases h
    exact ⟨[], rfl, .absent⟩

theorem readPower_complete {p : Option (Bool × List Char)} {pt rest : List Char}
    (h : PowerText p pt) (hrest : Stops rest) : readPower (pt ++ rest) = some (p, rest) := by
  have hdigit := hrest.noFraction.noDigit
  cases h with
  | absent =>
    cases rest with
    | nil => rfl
    | cons c r =>
      obtain ⟨-, -, he, hE⟩ := hrest c rfl
      simp [readPower, he, hE]
  | @bare mark ds hmark hds =>
    -- without a sign the first digit must not be taken for one
    have hread := @readPowerDigits_complete false ds rest hds hdigit
    obtain ⟨d, r, rfl, hd⟩ := hds.head
    have hplus : d ≠ '+' := ne_of_isDigit hd (by decide)
    have hminus : d ≠ '-' := ne_of_isDigit hd (by decide)
    simpa [readPower, hmark, hplus, hminus] using hread
  | plus hmark hds => simpa [readPower, hmark] using readPowerDigits_complete hds hdigit
  | minus hmark hds => simpa [readPower, hmark] using readPowerDigits_complete hds hdigit

/-- Behind the digits before the point a written power cannot be taken for more of them. -/
private theorem PowerText.noFraction {p : Option (Bool × List Char)} {pt rest : List Char}
    (h : PowerText p pt) (hrest : Stops rest) : NoFraction (pt ++ rest) := by
  have hletter : ∀ c, c = 'e' ∨ c = 'E' → Text.isDigit c = false ∧ c ≠ '.' := by
    rintro c (rfl | rfl) <;> decide
  cases h with
  | absent => exact hrest.noFraction
  | bare hmark _ | plus hmark _ | minus hmark _ =>
    intro c hc
    cases hc
    exact hletter _ hmark

private theorem FractionText.noDigit {f : Option (List Char)} {ft rest : List Char}
    (h : FractionText f ft) (hrest : NoFraction rest) : NoDigit (ft ++ rest) := by
  cases h with
  | absent => exact hrest.noDigit
  | present =>
    intro c hc
    cases hc
    decide

theorem readUnsignedNumeral_sound {negative : Bool} {s rest : List Char} {n : Numeral}
    (h : readUnsignedNumeral negative s = some (n, rest)) :
    ∃ w f p ft pt, n = ⟨negative, w, f, p⟩ ∧ s = w ++ (ft ++ pt) ++ rest ∧
      IsWhole w ∧ FractionText f ft ∧ PowerText p pt := by
  obtain ⟨⟨w, s₁⟩, hw, h⟩ := Option.bind_eq_some_iff.mp h
  obtain ⟨⟨f, s₂⟩, hf, h⟩ := Option.bind_eq_some_iff.mp h
  obtain ⟨⟨p, s₃⟩, hp, h⟩ := Option.bind_eq_some_iff.mp h
  cases h
  obtain ⟨rfl, hwhole⟩ := readWhole_sound hw
  obtain ⟨ft, rfl, hfraction⟩ := readFraction_sound hf
  obtain ⟨pt, rfl, hpower⟩ := readPower_sound hp
  exact ⟨w, f, p, ft, pt, rfl, by simp, hwhole, hfraction, hpower⟩

theorem readUnsignedNumeral_complete {negative : Bool} {w ft pt rest : List Char}
    {f : Option (List Char)} {p : Option (Bool × List Char)} (hw : IsWhole w)
    (hf : FractionText f ft) (hp : PowerText p pt) (hrest : Stops rest) :
    readUnsignedNumeral negative (w ++ (ft ++ pt) ++ rest) = some (⟨negative, w, f, p⟩, rest) := by
  -- each part ends where the next one starts, from the last to the first
  have hbehind := hp.noFraction hrest
  have hwhole := readWhole_complete hw (hf.noDigit hbehind)
  have hfraction := readFraction_complete hf hbehind
  have hpower := readPower_complete hp hrest
  simp only [List.append_assoc]
  simp [readUnsignedNumeral, hwhole, hfraction, hpower]

theorem readNumeral_sound {s rest : List Char} {n : Numeral}
    (h : readNumeral s = some (n, rest)) : ∃ l, s = l ++ rest ∧ NumeralText n l := by
  unfold readNumeral at h
  split at h
  · obtain ⟨w, f, p, ft, pt, rfl, rfl, hw, hf, hp⟩ := readUnsignedNumeral_sound h
    exact ⟨'-' :: (w ++ (ft ++ pt)), rfl, .negative hw hf hp⟩
  · obtain ⟨w, f, p, ft, pt, rfl, rfl, hw, hf, hp⟩ := readUnsignedNumeral_sound h
    exact ⟨w ++ (ft ++ pt), rfl, .positive hw hf hp⟩

theorem IsWhole.head {w : List Char} (h : IsWhole w) :
    ∃ d r, w = d :: r ∧ Text.isDigit d = true := by
  rcases h with rfl | ⟨hdigits, -⟩
  · exact ⟨'0', [], rfl, by decide⟩
  · exact hdigits.head

/-- A number starts with its sign or a digit. -/
theorem NumeralText.head {n : Numeral} {s : List Char} (h : NumeralText n s) :
    ∃ c r, s = c :: r ∧ (c = '-' ∨ Text.isDigit c = true) := by
  cases h with
  | positive hwhole _ _ =>
    obtain ⟨d, r, rfl, hd⟩ := hwhole.head
    exact ⟨d, _, List.cons_append, .inr hd⟩
  | negative => exact ⟨'-', _, rfl, .inl rfl⟩

theorem readNumeral_complete {n : Numeral} {s rest : List Char} (h : NumeralText n s)
    (hrest : Stops rest) : readNumeral (s ++ rest) = some (n, rest) := by
  cases h with
  | positive hw hf hp =>
    have hread := @readUnsignedNumeral_complete false _ _ _ _ _ _ hw hf hp hrest
    obtain ⟨d, r, rfl, hd⟩ := hw.head
    have hminus : d ≠ '-' := ne_of_isDigit hd (by decide)
    rw [List.cons_append, List.cons_append] at hread ⊢
    rw [readNumeral, hread]
    rintro r' hr
    cases hr
    exact hminus rfl
  | negative hw hf hp => exact readUnsignedNumeral_complete hw hf hp hrest

/-! ## Single tokens -/

/-- Whether the token is a value by itself. -/
def Token.isLeaf : Token → Bool
  | .leaf _ => true
  | _ => false

/-- Between two values there is a bracket or a separator. -/
def Separated (a b : Token) : Prop :=
  a.isLeaf = true → b.isLeaf = false

/-- Only the brackets and separators are no values. -/
theorem Lexeme.punctuation_of_not_leaf {t : Token} {l : List Char} (h : Lexeme t l)
    (ht : t.isLeaf = false) : ∃ c, l = [c] ∧ punctuation? c = some t := by
  cases h with
  | punctuation hc => exact ⟨_, rfl, hc⟩
  | null | bool | string | number => simp [Token.isLeaf] at ht

/-- A bracket or separator is no space and does not continue a number. -/
private theorem punctuation?_class {c : Char} {t : Token} (h : punctuation? c = some t) :
    isSpace c = false ∧ Text.isDigit c = false ∧ c ≠ '.' ∧ c ≠ 'e' ∧ c ≠ 'E' ∧ c ≠ '-' := by
  unfold punctuation? at h
  split at h
  · decide
  · decide
  · decide
  · decide
  · decide
  · decide
  · cases h

private theorem isDigit_class {c : Char} (h : Text.isDigit c = true) :
    punctuation? c = none ∧ c ≠ '"' ∧ isSpace c = false := by
  refine ⟨?_, ne_of_isDigit h (by decide), ?_⟩
  · cases ht : punctuation? c with
    | none => rfl
    | some t =>
      rw [(punctuation?_class ht).2.1] at h
      cases h
  · have hblank : c ≠ ' ' := ne_of_isDigit h (by decide)
    have htab : c ≠ '\t' := ne_of_isDigit h (by decide)
    have hline : c ≠ '\n' := ne_of_isDigit h (by decide)
    have hreturn : c ≠ '\r' := ne_of_isDigit h (by decide)
    simp [isSpace, hblank, htab, hline, hreturn]

private theorem readWord_sound {s rest : List Char} {v : Json}
    (h : readWord s = some (v, rest)) : ∃ l, s = l ++ rest ∧ Lexeme (.leaf v) l := by
  unfold readWord at h
  split at h
  · cases h
    exact ⟨_, rfl, .null⟩
  · cases h
    exact ⟨_, rfl, .bool true⟩
  · cases h
    exact ⟨_, rfl, .bool false⟩
  · cases h

/-- A token that is read is written by the text that was taken. -/
theorem readToken_sound {s rest : List Char} {t : Token} (h : readToken s = some (t, rest)) :
    ∃ l, s = l ++ rest ∧ Lexeme t l := by
  unfold readToken at h
  split at h
  · cases h
  · next c r =>
    split at h
    · next token hc =>
      cases h
      exact ⟨[c], rfl, .punctuation hc⟩
    · split at h
      · next hquote =>
        obtain ⟨⟨cs, rest'⟩, hread, heq⟩ := Option.map_eq_some_iff.mp h
        cases heq
        obtain ⟨body, rfl, hbody⟩ := readString_sound hread
        exact ⟨'"' :: (body ++ ['"']), by simp [hquote], .string hbody⟩
      · split at h
        · split at h
          · next numeral rest' hread =>
            obtain ⟨number, hnumber, heq⟩ := Option.map_eq_some_iff.mp h
            cases heq
            obtain ⟨l, hl, hnumeral⟩ := readNumeral_sound hread
            exact ⟨l, hl, .number hnumeral hnumber⟩
          · cases h
        · obtain ⟨⟨v, rest'⟩, hread, heq⟩ := Option.map_eq_some_iff.mp h
          cases heq
          exact readWord_sound hread

/-- What a number starts with is no space. -/
theorem NumeralText.head_not_space {n : Numeral} {s : List Char} (h : NumeralText n s) :
    ∃ c r, s = c :: r ∧ isSpace c = false := by
  obtain ⟨c, r, rfl, rfl | hc⟩ := h.head
  · exact ⟨'-', r, rfl, by decide⟩
  · exact ⟨c, r, rfl, (isDigit_class hc).2.2⟩

/-- What a lexeme starts with is no space. -/
theorem Lexeme.head {t : Token} {l : List Char} (h : Lexeme t l) :
    ∃ c r, l = c :: r ∧ isSpace c = false := by
  cases h with
  | punctuation hc => exact ⟨_, [], rfl, (punctuation?_class hc).1⟩
  | null => exact ⟨'n', _, rfl, by decide⟩
  | bool b => cases b <;> exact ⟨_, _, rfl, by decide⟩
  | string hs => exact ⟨'"', _, rfl, by decide⟩
  | number hn hv => exact hn.head_not_space

/-- A written number is read as far as it goes. -/
theorem readToken_numeral {n : Numeral} {s rest : List Char} (h : NumeralText n s)
    (hrest : Stops rest) :
    readToken (s ++ rest) = n.toJson?.map fun number => (.leaf number, rest) := by
  have hread := readNumeral_complete h hrest
  obtain ⟨c, r, rfl, rfl | hc⟩ := h.head
  · rw [List.cons_append] at hread ⊢
    simp [readToken, punctuation?, hread]
  · obtain ⟨hpunct, hquote, -⟩ := isDigit_class hc
    rw [List.cons_append] at hread ⊢
    simp [readToken, hpunct, hquote, hc, hread]

/-- A lexeme is read back, when a value is not followed by what could belong to a number. -/
theorem readToken_complete {t : Token} {l rest : List Char} (h : Lexeme t l)
    (hrest : t.isLeaf = true → Stops rest) : readToken (l ++ rest) = some (t, rest) := by
  cases h with
  | punctuation hc => simp [readToken, hc]
  | null => rfl
  | bool b => cases b <;> rfl
  | string hs =>
    have hread := readString_complete hs rest
    simp [readToken, punctuation?, hread]
  | number hn hv =>
    rw [readToken_numeral hn (hrest rfl), hv]
    rfl

/-! ## Token sequences -/

/-- All tokens that are read spell the text. -/
theorem readTokens_sound {fuel : Nat} {s : List Char} {ts : List Token}
    (h : readTokens fuel s = some ts) : Spelling ts s := by
  fun_induction readTokens fuel s generalizing ts with
  | case1 =>
    cases h
    exact .nil
  | case2 => cases h
  | case3 fuel c r hspace ih => exact .space hspace (ih h)
  | case4 fuel c r _ t rest hread ih =>
    obtain ⟨us, hus, rfl⟩ := Option.map_eq_some_iff.mp h
    obtain ⟨l, hl, hlexeme⟩ := readToken_sound hread
    rw [hl]
    exact .token hlexeme (ih hus)
  | case5 => cases h

/-- No space belongs to a number. -/
theorem stops_space {c : Char} (hc : isSpace c = true) (s : List Char) : Stops (c :: s) := by
  intro c' hc'
  cases hc'
  simp only [isSpace, Bool.or_eq_true, decide_eq_true_eq] at hc
  rcases hc with ((rfl | rfl) | rfl) | rfl <;> decide

/-- Nor does a bracket or separator. -/
theorem stops_punctuation {c : Char} {t : Token} (hc : punctuation? c = some t) (s : List Char) :
    Stops (c :: s) := by
  intro c' hc'
  cases hc'
  obtain ⟨-, hdigit, hdot, he, hE, -⟩ := punctuation?_class hc
  exact ⟨hdigit, hdot, he, hE⟩

/-- A text that does not start with a value does not go on as a number. -/
private theorem Spelling.stops {ts : List Token} {s : List Char} (h : Spelling ts s)
    (hts : ∀ t ∈ ts.head?, t.isLeaf = false) : Stops s := by
  cases h with
  | nil => exact stops_nil
  | space hc _ => exact stops_space hc _
  | token ht _ =>
    obtain ⟨c, rfl, hc⟩ := ht.punctuation_of_not_leaf (hts _ rfl)
    exact stops_punctuation hc _

/-- A text whose values are kept apart by punctuation is read as the tokens that spell it.  The
    induction is on the spelling; each lexeme takes one unit of fuel and at least one character. -/
theorem readTokens_complete {ts : List Token} {s : List Char} (h : Spelling ts s)
    (hsep : ts.IsChain Separated) {fuel : Nat} (hfuel : s.length ≤ fuel) :
    readTokens fuel s = some ts := by
  induction h generalizing fuel with
  | nil => cases fuel <;> rfl
  | @space c ts s hc _ ih =>
    rw [List.length_cons] at hfuel
    obtain ⟨fuel, rfl⟩ : ∃ n, fuel = n + 1 := ⟨fuel - 1, by omega⟩
    rw [readTokens, if_pos hc]
    exact ih hsep (by omega)
  | @token t ts l s ht hs ih =>
    -- behind a value stands no other, so the text behind it does not go on as a number
    have hstops : t.isLeaf = true → Stops s := by
      intro hleaf
      exact hs.stops fun u hu => hsep.rel_head? hu hleaf
    have hread := readToken_complete ht hstops
    -- the lexeme has a character, which pays for the unit of fuel
    obtain ⟨c, r, rfl, hc⟩ := ht.head
    rw [List.cons_append, List.length_cons, List.length_append] at hfuel
    obtain ⟨fuel, rfl⟩ : ∃ n, fuel = n + 1 := ⟨fuel - 1, by omega⟩
    rw [List.cons_append] at hread ⊢
    have htail : readTokens fuel s = some ts := ih hsep.of_cons (by omega)
    rw [readTokens, if_neg (by simp [hc]), hread]
    simp [htail]

end ShellQuery.Json
