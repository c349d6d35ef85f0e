import ShellQuery.Proofs.Json.Numerals
import ShellQuery.Proofs.Json.WellFormed

/-!
# Texts at face value

`Denotes` tells how a text is read here, with the reader's way of rounding and its limit on nesting.
`States` tells what the text says by itself: it differs in that numbers are exact, as in
`Numeral.faceValue?`, and in that values nest as deep as they like.

The main statements are `States.unique`, a text states at most one value, and `states_compact_iff`
and `states_pretty_iff`, the compact text and the pretty text of a value both state that value.
-/

namespace ShellQuery.Json

/-! ## Lexemes -/

/-- Whether the token is a number. -/
def Token.isNumber : Token → Bool
  | .leaf (int _) => true
  | .leaf (float _) => true
  | _ => false

/-- How a token is written when a number means its exact value. -/
inductive ExactLexeme : Token → List Char → Prop where
  | number {n : Numeral} {s : List Char} {v : Json} (hn : NumeralText n s)
      (hv : n.faceValue? = some v) : ExactLexeme (.leaf v) s
  | other {t : Token} {l : List Char} (h : Lexeme t l) (ht : t.isNumber = false) : ExactLexeme t l

/-- A text as a sequence of such lexemes, with space before, between and behind them. -/
inductive ExactSpelling : List Token → List Char → Prop where
  | nil : ExactSpelling [] []
  | space {c : Char} {ts : List Token} {s : List Char}
      (hc : isSpace c = true) (hs : ExactSpelling ts s) : ExactSpelling ts (c :: s)
  | token {t : Token} {ts : List Token} {l s : List Char}
      (ht : ExactLexeme t l) (hs : ExactSpelling ts s) : ExactSpelling (t :: ts) (l ++ s)

/-- The text is valid and says this value. -/
def States (s : List Char) (v : Json) : Prop :=
  ∃ depth ts, ExactSpelling ts s ∧ Derives depth (.value v) ts

/-! ## One value at most -/

theorem ExactLexeme.head {t : Token} {l : List Char} (h : ExactLexeme t l) :
    ∃ c r, l = c :: r ∧ isSpace c = false := by
  cases h with
  | number hn _ => exact hn.head_not_space
  | other h _ => exact h.head

theorem isNumber_of_toJson? {n : Numeral} {v : Json} (h : n.toJson? = some v) :
    (Token.leaf v).isNumber = true := by
  simp only [Numeral.toJson?] at h
  split at h
  · cases h
    rfl
  · split at h
    · cases h
      rfl
    · obtain ⟨d, -, rfl⟩ := Option.map_eq_some_iff.mp h
      rfl

/-- A number is not written like any other token. -/
private theorem numeralText_not_lexeme {n : Numeral} {s r l rest : List Char} {t : Token}
    (hn : NumeralText n s) (hr : Stops r) (h : Lexeme t l) (ht : t.isNumber = false)
    (hrest : t.isLeaf = true → Stops rest) : s ++ r ≠ l ++ rest := by
  intro heq
  have hread := readToken_numeral hn hr
  rw [heq, readToken_complete h hrest] at hread
  obtain ⟨v, hv, hpair⟩ := Option.map_eq_some_iff.mp hread.symm
  cases hpair
  rw [isNumber_of_toJson? hv] at ht
  cases ht

/-- The text tells where its first lexeme ends and which token it is. -/
theorem ExactLexeme.unique {t u : Token} {l m r s : List Char} (ht : ExactLexeme t l)
    (hu : ExactLexeme u m) (htr : t.isLeaf = true → Stops r) (hus : u.isLeaf = true → Stops s)
    (heq : l ++ r = m ++ s) : t = u ∧ r = s := by
  cases ht with
  | number hn hv =>
    cases hu with
    | number hn' hv' =>
      have hread := readNumeral_complete hn (htr rfl)
      rw [heq, readNumeral_complete hn' (hus rfl)] at hread
      cases hread
      rw [hv] at hv'
      cases hv'
      exact ⟨rfl, rfl⟩
    | other h hother => exact absurd heq (numeralText_not_lexeme hn (htr rfl) h hother hus)
  | other h hother =>
    cases hu with
    | number hn' hv' =>
      exact absurd heq.symm (numeralText_not_lexeme hn' (hus rfl) h hother htr)
    | other h' _ =>
      have hread := readToken_complete h htr
      rw [heq, readToken_complete h' hus] at hread
      cases hread
      exact ⟨rfl, rfl⟩

/-- A text that does not start with a value does not go on as a number. -/
private theorem ExactSpelling.stops {ts : List Token} {s : List Char} (h : ExactSpelling ts s)
    (hts : ∀ t ∈ ts.head?, t.isLeaf = false) : Stops s := by
  cases h with
  | nil => exact stops_nil
  | space hc _ => exact stops_space hc _
  | token ht _ =>
    have hleaf := hts _ rfl
    cases ht with
    | number => cases hleaf
    | other h _ =>
      obtain ⟨c, rfl, hc⟩ := h.punctuation_of_not_leaf hleaf
      exact stops_punctuation hc _

/-- What a text that is not empty starts with: space or a lexeme. -/
private theorem ExactSpelling.start {ts : List Token} {s : List Char} (h : ExactSpelling ts s) :
    (ts = [] ∧ s = []) ∨ (∃ c r, s = c :: r ∧ isSpace c = true ∧ ExactSpelling ts r) ∨
      ∃ t us l r, ts = t :: us ∧ s = l ++ r ∧ ExactLexeme t l ∧ ExactSpelling us r := by
  cases h with
  | nil => exact .inl ⟨rfl, rfl⟩
  | space hc hs => exact .inr (.inl ⟨_, _, rfl, hc, hs⟩)
  | token ht hs => exact .inr (.inr ⟨_, _, _, _, rfl, rfl, ht, hs⟩)

/-- A text is spelled by one sequence of tokens in which values are kept apart. -/
theorem ExactSpelling.unique {ts us : List Token} {s : List Char} (h : ExactSpelling ts s)
    (hsep : ts.IsChain Separated) (hu : ExactSpelling us s) (hsep' : us.IsChain Separated) :
    ts = us := by
  -- on the first spelling; the second one starts in the same way
  induction h generalizing us with
  | nil =>
    obtain ⟨rfl, -⟩ | ⟨c, r, hs, -⟩ | ⟨t, vs, l, r, -, hs, ht, -⟩ := hu.start
    · rfl
    · cases hs
    · obtain ⟨c, l, rfl, -⟩ := ht.head
      cases hs
  | @space c ts s hc _ ih =>
    obtain ⟨-, hs⟩ | ⟨c', r, hs, -, hr⟩ | ⟨t, vs, l, r, -, hs, ht, -⟩ := hu.start
    · cases hs
    · cases hs
      exact ih hsep hr hsep'
    · obtain ⟨c', l, rfl, hc'⟩ := ht.head
      cases hs
      rw [hc] at hc'
      cases hc'
  | @token t ts l s ht hs ih =>
    obtain ⟨c, l', hl, hc⟩ := ht.head
    obtain ⟨-, heq⟩ | ⟨c', r, heq, hc', -⟩ | ⟨u, vs, m, r, rfl, heq, hu, hr⟩ := hu.start
    · rw [hl] at heq
      cases heq
    · rw [hl] at heq
      cases heq
      rw [hc] at hc'
      cases hc'
    · -- behind a value stands no other, so the text behind it does not go on as a number
      have hstops : t.isLeaf = true → Stops s := fun hleaf =>
        hs.stops fun w hw => hsep.rel_head? hw hleaf
      have hstops' : u.isLeaf = true → Stops r := fun hleaf =>
        hr.stops fun w hw => hsep'.rel_head? hw hleaf
      obtain ⟨rfl, rfl⟩ := ht.unique hu hstops hstops' heq
      rw [ih hsep.of_cons hr hsep'.of_cons]

/-- A text states at most one value. -/
theorem States.unique {s : List Char} {v w : Json} (hv : States s v) (hw : States s w) :
    v = w := by
  obtain ⟨d, ts, hts, hderives⟩ := hv
  obtain ⟨e, us, hus, hderives'⟩ := hw
  obtain rfl := hts.unique hderives.separated hus hderives'.separated
  have hread := ofTokens?_eq_some_iff.mpr (hderives.mono (le_max_left d e))
  rw [ofTokens?_eq_some_iff.mpr (hderives'.mono (le_max_right d e))] at hread
  exact (Option.some.inj hread).symm

/-! ## Values as texts -/

theorem isNumber_of_punctuation? {c : Char} {t : Token} (h : punctuation? c = some t) :
    t.isNumber = false := by
  unfold punctuation? at h
  split at h
  · cases h; rfl
  · cases h; rfl
  · cases h; rfl
  · cases h; rfl
  · cases h; rfl
  · cases h; rfl
  · cases h

theorem isSpelling_exactSpelling : IsSpelling ExactSpelling where
  space hc h := .space hc h
  mark hc _ _ h := .token (.other (.punctuation hc) (isNumber_of_punctuation? hc)) h
  text name _ _ h := .token (.other (lexeme_writeString name) rfl) h

theorem prints_exactLexeme {v : Json} {l : List Char} (h : ExactLexeme (.leaf v) l) :
    ∃ d, Prints ExactSpelling d (.value v) (l ++ ·) :=
  ⟨0, [.leaf v], .leaf v, fun _ _ hrest => .token h hrest⟩

theorem exactLexeme_intDigits (i : Int) : ExactLexeme (.leaf (int i)) (Text.intDigits i) := by
  obtain ⟨n, htext, hvalue⟩ := exists_numeral_intDigits i
  exact .number htext hvalue

theorem exactLexeme_documentText (d : Double) : ExactLexeme (.leaf (float d)) d.documentText := by
  obtain ⟨n, htext, hvalue⟩ := exists_numeral_documentText d
  exact .number htext hvalue

/-- Every value without repeated names is written, whatever numbers it holds and however deep it
    nests. -/
theorem WellFormed.prints_writeOnto {v : Json} (h : v.WellFormed) :
    ∃ d, Prints ExactSpelling d (.value v) (writeOnto v) := by
  induction h with
  | null => exact prints_exactLexeme (.other .null rfl)
  | bool b => exact prints_exactLexeme (.other (.bool b) rfl)
  | int i => exact prints_exactLexeme (exactLexeme_intDigits i)
  | float d => exact prints_exactLexeme (exactLexeme_documentText d)
  | str s => exact prints_exactLexeme (.other (lexeme_writeString s) rfl)
  | arr _ ih =>
    obtain ⟨d, hitems⟩ := exists_depth ih
    exact ⟨d + 1, prints_writeOnto_arr isSpelling_exactSpelling hitems⟩
  | obj hnodup _ ih =>
    obtain ⟨d, hfields⟩ := exists_depth ih
    exact ⟨d + 1, prints_writeOnto_obj isSpelling_exactSpelling hnodup hfields⟩

theorem WellFormed.prints_prettyOnto {v : Json} (h : v.WellFormed) (level : Nat) :
    ∃ d, Prints ExactSpelling d (.value v) (prettyOnto level v) := by
  induction h generalizing level with
  | null => exact prints_exactLexeme (.other .null rfl)
  | bool b => exact prints_exactLexeme (.other (.bool b) rfl)
  | int i => exact prints_exactLexeme (exactLexeme_intDigits i)
  | float d => exact prints_exactLexeme (exactLexeme_documentText d)
  | str s => exact prints_exactLexeme (.other (lexeme_writeString s) rfl)
  | arr _ ih =>
    obtain ⟨d, hitems⟩ := exists_depth fun v hv => ih v hv (level + 1)
    exact ⟨d + 1, prints_prettyOnto_arr isSpelling_exactSpelling hitems⟩
  | obj hnodup _ ih =>
    obtain ⟨d, hfields⟩ := exists_depth fun e he => ih e he (level + 1)
    exact ⟨d + 1, prints_prettyOnto_obj isSpelling_exactSpelling hnodup hfields⟩

/-- What is written in front of nothing is the text of the value and of no other. -/
theorem states_iff_of_prints {v : Json} {print : List Char → List Char}
    (h : ∃ d, Prints ExactSpelling d (.value v) print) {w : Json} :
    States (print []) w ↔ w = v := by
  obtain ⟨d, ts, hderives, hspelling⟩ := h
  have htext := hspelling [] [] .nil
  rw [List.append_nil] at htext
  have hstates : States (print []) v := ⟨d, ts, htext, hderives⟩
  exact ⟨fun hw => hw.unique hstates, fun hw => hw ▸ hstates⟩

/-- The compact text of a value states that value and no other. -/
theorem states_compact_iff {v : Json} (h : v.WellFormed) {w : Json} :
    States v.compact.toList w ↔ w = v := by
  rw [compact, String.toList_ofList]
  exact states_iff_of_prints h.prints_writeOnto

/-- The pretty text of a value states that value and no other. -/
theorem states_pretty_iff {v : Json} (h : v.WellFormed) {w : Json} :
    States v.pretty.toList w ↔ w = v := by
  rw [pretty, String.toList_ofList]
  exact states_iff_of_prints (h.prints_prettyOnto 0)

end ShellQuery.Json
