import ShellQuery.Proofs.Json.Reading
import ShellQuery.Proofs.Query.Balance
import ShellQuery.Proofs.Text.Digits
import ShellQuery.Text.Blank

/-!
# JSON texts between brackets

The scan for a closing bracket and the reader of JSON have rules of their own for quotes and
brackets.  They agree on every JSON text: it is balanced, so a scan that starts in front of it
never stops inside.  The reverse does not hold, and nothing needs it.
-/

namespace ShellQuery.Json

open ShellQuery.Bracket

/-! ## Strings -/

/-- The characters of a class without quote and backslash may be put in front of a quoted text. -/
private theorem quotedText_of_class {p : Char → Bool} (hquote : p '"' = false)
    (hslash : p '\\' = false) {l s : List Char} (hl : ∀ c ∈ l, p c = true)
    (hs : QuotedText '"' s) : QuotedText '"' (l ++ s) := by
  induction l with
  | nil => exact hs
  | cons c r ih =>
    obtain ⟨hc, hr⟩ := List.forall_mem_cons.mp hl
    have hne : ∀ d, p d = false → c ≠ d := by
      rintro d hd rfl
      rw [hc] at hd
      cases hd
    exact .plain (hne _ hslash) (hne _ hquote) (ih hr)

private theorem quotedText_hexUnit {a b c d : Char} {u : Nat} (hu : hexUnit? a b c d = some u)
    {s : List Char} (hs : QuotedText '"' s) :
    QuotedText '"' ('\\' :: 'u' :: a :: b :: c :: d :: s) := by
  -- the scan passes over the `u` behind the backslash; the four digits are plain characters
  have hdigits : ∀ x ∈ [a, b, c, d], Text.isHexDigit x = true :=
    Text.value?_isSome_of_accumulate hu
  have hunit : QuotedText '"' ([a, b, c, d] ++ s) :=
    quotedText_of_class (by decide) (by decide) hdigits hs
  exact .escape hunit

/-- A written character does not end the quoted part that it stands in. -/
theorem CharText.quotedText {c : Char} {l s : List Char} (h : CharText c l)
    (hs : QuotedText '"' s) : QuotedText '"' (l ++ s) := by
  cases h with
  | plain hquote hslash _ => exact .plain hslash hquote hs
  | escape _ => exact .escape hs
  | unit hu _ => exact quotedText_hexUnit hu hs
  | pair hhigh hlow _ => exact quotedText_hexUnit hhigh (quotedText_hexUnit hlow hs)

theorem StringText.quotedText {cs s : List Char} (h : StringText cs s) : QuotedText '"' s := by
  induction h with
  | nil => exact .nil
  | cons hc _ ih => exact hc.quotedText ih

/-! ## Lexemes -/

/-- The characters of numbers. -/
private def isNumeric (c : Char) : Bool :=
  Text.isDigit c || c = '-' || c = '+' || c = '.' || c = 'e' || c = 'E'

private theorem isNumeric_of_digits {ds : List Char} (h : IsDigits ds) :
    ∀ c ∈ ds, isNumeric c = true := by
  intro c hc
  simp [isNumeric, h.2 c hc]

private theorem isNumeric_of_whole {w : List Char} (h : IsWhole w) :
    ∀ c ∈ w, isNumeric c = true := by
  rcases h with rfl | ⟨hdigits, -⟩
  · exact List.forall_mem_singleton.mpr (by decide)
  · exact isNumeric_of_digits hdigits

private theorem isNumeric_of_fraction {f : Option (List Char)} {ft : List Char}
    (h : FractionText f ft) : ∀ c ∈ ft, isNumeric c = true := by
  cases h with
  | absent => nofun
  | present hds => exact List.forall_mem_cons.mpr ⟨by decide, isNumeric_of_digits hds⟩

private theorem isNumeric_of_power {p : Option (Bool × List Char)} {pt : List Char}
    (h : PowerText p pt) : ∀ c ∈ pt, isNumeric c = true := by
  have hletter : ∀ c, c = 'e' ∨ c = 'E' → isNumeric c = true := by
    rintro c (rfl | rfl) <;> decide
  cases h with
  | absent => nofun
  | bare hmark hds =>
    exact List.forall_mem_cons.mpr ⟨hletter _ hmark, isNumeric_of_digits hds⟩
  | plus hmark hds =>
    have hdigits := isNumeric_of_digits hds
    exact List.forall_mem_cons.mpr
      ⟨hletter _ hmark, List.forall_mem_cons.mpr ⟨by decide, hdigits⟩⟩
  | minus hmark hds =>
    have hdigits := isNumeric_of_digits hds
    exact List.forall_mem_cons.mpr
      ⟨hletter _ hmark, List.forall_mem_cons.mpr ⟨by decide, hdigits⟩⟩

private theorem NumeralText.isNumeric {n : Numeral} {s : List Char} (h : NumeralText n s) :
    ∀ c ∈ s, Json.isNumeric c = true := by
  -- what stands behind the sign
  have hparts : ∀ {w f p ft pt}, IsWhole w → FractionText f ft → PowerText p pt →
      ∀ c ∈ w ++ (ft ++ pt), Json.isNumeric c = true := by
    intro w f p ft pt hw hf hp
    rw [List.forall_mem_append, List.forall_mem_append]
    exact ⟨isNumeric_of_whole hw, isNumeric_of_fraction hf, isNumeric_of_power hp⟩
  cases h with
  | positive hw hf hp => exact hparts hw hf hp
  | negative hw hf hp => exact List.forall_mem_cons.mpr ⟨by decide, hparts hw hf hp⟩

private theorem balanced_of_word {s : List Char} (h : s.all Char.isLower = true) : Balanced s :=
  balanced_of_plain fun c hc => isPlain_of_class (by decide) (List.all_eq_true.mp h c hc)

/-- The brackets and separators stand for no value. -/
theorem punctuation?_isLeaf {c : Char} {t : Token} (h : punctuation? c = some t) :
    t.isLeaf = false := by
  unfold punctuation? at h
  split at h
  all_goals cases h
  all_goals rfl

/-- The text of a value that is neither list nor object is balanced. -/
theorem Lexeme.balanced {v : Json} {l : List Char} (h : Lexeme (.leaf v) l) : Balanced l := by
  cases h with
  | punctuation hc => cases punctuation?_isLeaf hc
  | null => exact balanced_of_word (by decide)
  | bool b => cases b <;> exact balanced_of_word (by decide)
  | string hs => exact .quoted (by decide) hs.quotedText .nil
  | number hn _ =>
    exact balanced_of_plain fun c hc => isPlain_of_class (by decide) (hn.isNumeric c hc)

/-- A bracket or separator has one text. -/
theorem punctuation?_injective {c d : Char} {t : Token} (hc : punctuation? c = some t)
    (hd : punctuation? d = some t) : c = d := by
  unfold punctuation? at hc hd
  split at hc
  all_goals cases hc
  all_goals split at hd
  all_goals first | rfl | cases hd

/-! ## Spellings -/

/-- A text without tokens is space. -/
theorem isSpace_of_spelling {s : List Char} (h : Spelling [] s) : ∀ c ∈ s, isSpace c = true := by
  -- the induction needs a variable in place of the list of tokens
  generalize hts : ([] : List Token) = ts at h
  induction h with
  | nil => nofun
  | space hc _ ih => exact List.forall_mem_cons.mpr ⟨hc, ih hts⟩
  | token _ _ _ => cases hts

/-- Space between lexemes is balanced. -/
theorem balanced_of_space {s : List Char} (h : Spelling [] s) : Balanced s :=
  balanced_of_plain fun c hc => isPlain_of_class (by decide) (isSpace_of_spelling h c hc)

/-- The text of some tokens is space, the text of the first and the text of the others. -/
theorem Spelling.uncons {t : Token} {ts : List Token} {s : List Char} (h : Spelling (t :: ts) s) :
    ∃ a l b, s = a ++ (l ++ b) ∧ Spelling [] a ∧ Lexeme t l ∧ Spelling ts b := by
  generalize hus : t :: ts = us at h
  induction h with
  | nil => cases hus
  | @space c us s hc _ ih =>
    obtain ⟨a, l, b, rfl, ha, hl, hb⟩ := ih hus
    exact ⟨c :: a, l, b, rfl, .space hc ha, hl, hb⟩
  | @token t' us l s hl hs _ =>
    cases hus
    exact ⟨[], l, s, rfl, .nil, hl, hs⟩

theorem Spelling.append {ts us : List Token} {s t : List Char} (hs : Spelling ts s)
    (ht : Spelling us t) : Spelling (ts ++ us) (s ++ t) := by
  induction hs with
  | nil => exact ht
  | space hc _ ih => exact .space hc ih
  | @token t' ts l s hl _ ih =>
    rw [List.append_assoc]
    exact .token hl ih

/-- The text of two runs of tokens falls into a text for each. -/
theorem Spelling.split {ts us : List Token} {s : List Char} (h : Spelling (ts ++ us) s) :
    ∃ a b, s = a ++ b ∧ Spelling ts a ∧ Spelling us b := by
  induction ts generalizing s with
  | nil => exact ⟨[], s, rfl, .nil, h⟩
  | cons t ts ih =>
    obtain ⟨a, l, b, rfl, ha, hl, hb⟩ := h.uncons
    obtain ⟨b₁, b₂, rfl, hb₁, hb₂⟩ := ih hb
    exact ⟨a ++ (l ++ b₁), b₂, by simp, ha.append (.token hl hb₁), hb₂⟩

/-- The text of a bracket or separator and the tokens behind it. -/
theorem Spelling.uncons_punctuation {c : Char} {t : Token} (hc : punctuation? c = some t)
    {ts : List Token} {s : List Char} (h : Spelling (t :: ts) s) :
    ∃ a b, s = a ++ c :: b ∧ Spelling [] a ∧ Spelling ts b := by
  obtain ⟨a, l, b, rfl, ha, hl, hb⟩ := h.uncons
  obtain ⟨d, rfl, hd⟩ := hl.punctuation_of_not_leaf (punctuation?_isLeaf hc)
  rw [punctuation?_injective hd hc]
  exact ⟨a, b, rfl, ha, hb⟩

/-! ## Values -/

/-- All texts of the tokens are balanced. -/
def BalancedTokens (ts : List Token) : Prop :=
  ∀ s, Spelling ts s → Balanced s

theorem balancedTokens_leaf (v : Json) : BalancedTokens [.leaf v] := by
  intro s hs
  obtain ⟨a, l, b, rfl, ha, hl, hb⟩ := hs.uncons
  exact (balanced_of_space ha).append (hl.balanced.append (balanced_of_space hb))

/-- Balanced tokens may be joined by a separator. -/
theorem BalancedTokens.join {c : Char} {t : Token} (hc : punctuation? c = some t)
    (hplain : IsPlain c) {ts us : List Token} (hts : BalancedTokens ts)
    (hus : BalancedTokens us) : BalancedTokens (ts ++ t :: us) := by
  intro s hs
  -- the text is that of the first tokens, space, the separator and the text of the others
  obtain ⟨a, r, rfl, ha, hr⟩ := hs.split
  obtain ⟨b, r, rfl, hb, hr⟩ := hr.uncons_punctuation hc
  have hright : Balanced (c :: r) := .plain hplain.quote hplain.opener hplain.closer (hus r hr)
  exact (hts a ha).append ((balanced_of_space hb).append hright)

/-- Balanced tokens may stand between brackets. -/
theorem BalancedTokens.enclosed {o c : Char} {t u : Token} (ho : punctuation? o = some t)
    (hc : punctuation? c = some u) (hoc : closer? o = some c) {ts : List Token}
    (hts : BalancedTokens ts) : BalancedTokens (t :: (ts ++ [u])) := by
  intro s hs
  -- space may stand in front of either bracket; behind the opening one it belongs to the inside
  obtain ⟨a, r, rfl, ha, hr⟩ := hs.uncons_punctuation ho
  obtain ⟨b, r, rfl, hb, hr⟩ := hr.split
  obtain ⟨b', r, rfl, hb', hr⟩ := hr.uncons_punctuation hc
  have hinside : Balanced (b ++ b') := (hts b hb).append (balanced_of_space hb')
  have hgroup : Balanced (o :: ((b ++ b') ++ c :: r)) :=
    .group hoc hinside (balanced_of_space hr)
  simpa using (balanced_of_space ha).append hgroup

/-- Every text of a value, and of the inside of a list or an object, is balanced. -/
theorem Derives.balanced {d : Nat} {p : Phrase} {ts : List Token} (h : Derives d p ts) :
    BalancedTokens ts := by
  have hcolon : IsPlain ':' := isPlain_of_not_mem (by decide)
  have hcomma : IsPlain ',' := isPlain_of_not_mem (by decide)
  have hempty : BalancedTokens [] := fun _ => balanced_of_space
  induction h with
  | leaf v => exact balancedTokens_leaf v
  | emptyArray => exact hempty.enclosed (o := '[') (c := ']') rfl rfl rfl
  | array _ ih => exact ih.enclosed (o := '[') (c := ']') rfl rfl rfl
  | emptyObject => exact hempty.enclosed (o := '{') (c := '}') rfl rfl rfl
  | object _ ih => exact ih.enclosed (o := '{') (c := '}') rfl rfl rfl
  | lastItem _ ih => exact ih
  | item _ _ ih ihs => exact ih.join (c := ',') rfl hcomma ihs
  | @lastField d name v ts _ ih =>
    -- the name is a leaf like any string, and a colon joins it to its value
    exact (balancedTokens_leaf (str name)).join (c := ':') rfl hcolon ih
  | @field d name v fs ts us _ _ ih ihs =>
    have hmembers : BalancedTokens (ts ++ .comma :: us) := ih.join (c := ',') rfl hcomma ihs
    exact (balancedTokens_leaf (str name)).join (c := ':') rfl hcolon hmembers

/-- No number is a list. -/
private theorem toJson?_ne_arr (n : Numeral) (vs : List Json) : n.toJson? ≠ some (.arr vs) := by
  intro h
  simp only [Numeral.toJson?] at h
  split at h
  · cases h
  · split at h
    · cases h
    · obtain ⟨d, -, hd⟩ := Option.map_eq_some_iff.mp h
      cases hd

/-- No lexeme writes a list. -/
theorem Lexeme.not_array {vs : List Json} {l : List Char} : ¬ Lexeme (.leaf (.arr vs)) l := by
  intro h
  cases h with
  | punctuation hc => cases punctuation?_isLeaf hc
  | number _ hv => exact toJson?_ne_arr _ _ hv

/-- A list that is bracketed in a text has its first and last bracket at the ends. -/
private theorem spelling_inside {ts : List Token} {s : List Char}
    (h : Spelling (.openArray :: (ts ++ [.closeArray])) ('[' :: (s ++ [']']))) :
    ∃ a b, s = a ++ b ∧ Spelling ts a ∧ Spelling [] b := by
  obtain ⟨a, r, hs, ha, hr⟩ := h.uncons_punctuation (c := '[') rfl
  obtain rfl : a = [] := by
    cases a with
    | nil => rfl
    | cons c a =>
      -- the text would start with space instead of its bracket
      obtain rfl := (List.cons.inj hs).1
      exact absurd (isSpace_of_spelling ha '[' List.mem_cons_self) (by decide)
  obtain rfl := (List.cons.inj hs).2
  obtain ⟨b, r, hsplit, hb, hr⟩ := hr.split
  obtain ⟨b', r, rfl, hb', hr⟩ := hr.uncons_punctuation (c := ']') rfl
  refine ⟨b, b', ?_, hb, hb'⟩
  rcases List.eq_nil_or_concat r with rfl | ⟨r, c, rfl⟩
  · exact List.append_cancel_right (by simpa using hsplit)
  · -- the text would end with space instead of its bracket
    have hlast : c = ']' := by
      have hends : s ++ [']'] = (b ++ (b' ++ ']' :: r)) ++ [c] := by simpa using hsplit
      exact (List.append_singleton_inj.mp hends).2.symm
    have hspace := isSpace_of_spelling hr c (by simp)
    rw [hlast] at hspace
    exact absurd hspace (by decide)

/-- What stands between the brackets of a list is space, or the text of its items. -/
theorem Denotes.inside {depth : Nat} {s : List Char} {vs : List Json}
    (h : Denotes depth ('[' :: (s ++ [']'])) (.arr vs)) :
    vs = [] ∧ Spelling [] s ∨
      ∃ d ts a b, s = a ++ b ∧ Derives d (.items vs) ts ∧ Spelling ts a ∧ Spelling [] b := by
  obtain ⟨ts, hspelling, hderives⟩ := h
  cases hderives with
  | leaf =>
    -- the grammar of tokens allows a list as a leaf, but no lexeme writes one
    obtain ⟨a, l, b, -, -, hl, -⟩ := hspelling.uncons
    exact absurd hl Lexeme.not_array
  | emptyArray =>
    obtain ⟨a, b, rfl, ha, hb⟩ := @spelling_inside [] _ hspelling
    exact .inl ⟨rfl, ha.append hb⟩
  | array hitems =>
    obtain ⟨a, b, rfl, ha, hb⟩ := spelling_inside hspelling
    exact .inr ⟨_, _, a, b, rfl, hitems, ha, hb⟩

/-- What stands between the brackets of a list is balanced. -/
theorem Denotes.balanced_inside {depth : Nat} {s : List Char} {vs : List Json}
    (h : Denotes depth ('[' :: (s ++ [']'])) (.arr vs)) : Balanced s := by
  rcases h.inside with ⟨-, hs⟩ | ⟨d, ts, a, b, rfl, hitems, ha, hb⟩
  · exact balanced_of_space hs
  · exact (hitems.balanced a ha).append (balanced_of_space hb)

/-! ## Nesting -/

/-- A text between brackets denotes the list of its one value, which nests one level deeper. -/
theorem Denotes.bracketed {d : Nat} {s : List Char} {v : Json} (h : Denotes d s v) :
    Denotes (d + 1) ('[' :: (s ++ [']'])) (.arr [v]) := by
  obtain ⟨ts, hspelling, hderives⟩ := h
  have hclose : Spelling [.closeArray] [']'] := .token (.punctuation rfl) .nil
  exact ⟨.openArray :: (ts ++ [.closeArray]), .token (.punctuation rfl) (hspelling.append hclose),
    .array (.lastItem hderives)⟩

/-! ## Blank texts -/

private theorem isBlank_of_digit {c : Char} (h : Text.isDigit c = true) :
    Text.isBlank c = false := by
  have hrange : 48 ≤ c.toNat ∧ c.toNat ≤ 57 := by
    unfold Text.isDigit Text.digitValue? at h
    split at h
    · next hc => exact hc
    · cases h
  simp only [Text.isBlank, Text.inRanges, Text.blankRanges, List.any_cons, List.any_nil,
    Bool.or_false, Bool.or_eq_false_iff, Bool.and_eq_false_imp, decide_eq_true_eq,
    decide_eq_false_iff_not]
  omega

/-- A lexeme is never blank as a whole. -/
theorem Lexeme.exists_not_blank {t : Token} {l : List Char} (h : Lexeme t l) :
    ∃ c ∈ l, Text.isBlank c = false := by
  cases h with
  | @punctuation c t hc =>
    refine ⟨c, List.mem_singleton_self c, ?_⟩
    unfold punctuation? at hc
    split at hc
    all_goals first | decide | cases hc
  | null => exact ⟨'n', by decide, by decide⟩
  | bool b => cases b <;> exact ⟨'e', by decide, by decide⟩
  | string hs => exact ⟨'"', List.mem_cons_self, by decide⟩
  | number hn hv =>
    -- a number starts with its sign or with a digit
    obtain ⟨c, r, rfl, rfl | hc⟩ := hn.head
    · exact ⟨'-', List.mem_cons_self, by decide⟩
    · exact ⟨c, List.mem_cons_self, isBlank_of_digit hc⟩

/-- Between the brackets of a list with items there is more than blanks. -/
theorem Denotes.eq_nil_of_blank {depth : Nat} {s : List Char} {vs : List Json}
    (h : Denotes depth ('[' :: (s ++ [']'])) (.arr vs))
    (hblank : ∀ c ∈ s, Text.isBlank c = true) : vs = [] := by
  rcases h.inside with ⟨hvs, -⟩ | ⟨d, ts, a, b, rfl, hitems, ha, hb⟩
  · exact hvs
  · -- the first token of the items has a lexeme, and that is not blank
    obtain ⟨t, us, rfl, -⟩ := hitems.head
    obtain ⟨a₁, l, a₂, rfl, -, hl, -⟩ := ha.uncons
    obtain ⟨c, hc, hne⟩ := hl.exists_not_blank
    rw [hblank c (by simp [hc])] at hne
    cases hne

end ShellQuery.Json
