import ShellQuery.Proofs.Query.ScriptText
import ShellQuery.Proofs.Text.LetterCase
import ShellQuery.Proofs.Text.Names

/-!
# Literals of object ids

A literal is a row of tokens, a brace, a name in quotes, a colon, an id in quotes and a brace, with
blank text between any two of them.  `Spaced` is the text of such a row, and `IsLiteral` fixes the
tokens.

The main statement is `readLiteral_eq_some_iff`: what is read off the front of a text is a literal,
and every literal is read, whatever comes behind it.  So a literal that starts at a place ends at
one place (`IsLiteral.unique`), and no other one starts inside it, as its first character is its
only opening brace.
-/

namespace ShellQuery.ScriptText

open Text

variable {s t l l' rest rest' id id' blank token next : List Char} {ts : List (List Char)}
  {c : Char}

/-! ## Rows of tokens -/

/-- The tokens in order, with blank text between them. -/
inductive Spaced : List (List Char) → List Char → Prop where
  | last (token : List Char) : Spaced [token] token
  | cons {token blank rest : List Char} {ts : List (List Char)} (hblank : IsBlankText blank)
      (hrest : Spaced ts rest) : Spaced (token :: ts) (token ++ (blank ++ rest))

/-- The text has a first character, and that is not blank. -/
def IsSolid (s : List Char) : Prop :=
  ∃ c r, s = c :: r ∧ isBlank c = false

theorem IsSolid.append (h : IsSolid s) (t : List Char) : IsSolid (s ++ t) := by
  obtain ⟨c, r, rfl, hc⟩ := h
  exact ⟨c, r ++ t, rfl, hc⟩

theorem IsSolid.dropBlank (h : IsSolid s) : dropBlank s = s := by
  obtain ⟨c, r, rfl, hc⟩ := h
  rw [Text.dropBlank, List.dropWhile_cons_of_neg (by simp [hc])]

theorem Spaced.isSolid (h : Spaced (token :: ts) s) (htoken : IsSolid token) : IsSolid s := by
  cases h with
  | last => exact htoken
  | cons => exact htoken.append _

theorem Spaced.eq_of_singleton (h : Spaced [token] s) : s = token := by
  cases h with
  | last => rfl
  | cons _ hrest => cases hrest

theorem Spaced.uncons (h : Spaced (token :: next :: ts) s) :
    ∃ blank rest, IsBlankText blank ∧ Spaced (next :: ts) rest ∧ s = token ++ (blank ++ rest) := by
  cases h with
  | cons hblank hrest => exact ⟨_, _, hblank, hrest, rfl⟩

/-- Only tokens and blank characters stand in the text. -/
theorem Spaced.not_mem (h : Spaced ts s) (hc : isBlank c = false) (hts : ∀ t ∈ ts, c ∉ t) :
    c ∉ s := by
  induction h with
  | last token => exact hts token List.mem_cons_self
  | cons hblank _ ih =>
    obtain ⟨htoken, hrest⟩ := List.forall_mem_cons.mp hts
    rw [List.mem_append, List.mem_append, not_or, not_or]
    exact ⟨htoken, hblank.not_mem hc, ih hrest⟩

/-- The text ends with the last token. -/
theorem Spaced.suffix (h : Spaced ts s) (hlast : ts.getLast? = some token) : token <:+ s := by
  induction h with
  | last =>
    cases hlast
    exact List.suffix_rfl
  | @cons first blank rest ts _ hrest ih =>
    obtain ⟨next, ts, rfl⟩ : ∃ next more, ts = next :: more := by
      cases hrest <;> exact ⟨_, _, rfl⟩
    rw [List.getLast?_cons_cons] at hlast
    exact (ih hlast).trans ((List.suffix_append blank rest).trans (List.suffix_append first _))

/-! ## Literals -/

/-- The text is a literal with the id, which keeps the case in which it is written. -/
structure IsLiteral (s id : List Char) : Prop where
  identifier : IsIdentifier id
  spelling : ∃ name, name.map Char.toLower = ['$', 'o', 'i', 'd'] ∧
    Spaced [['{'], ['"'], name, ['"'], [':'], ['"'], id, ['"'], ['}']] s

/-! ## Marks -/

/-- What is taken off the front is the mark with the blank text behind it. -/
theorem exists_of_dropMark {mark : Char} (h : dropMark mark s = some t) :
    ∃ blank, IsBlankText blank ∧ s = [mark] ++ (blank ++ t) := by
  unfold dropMark at h
  split at h
  · next c r =>
    obtain ⟨hmark, heq⟩ := Option.ite_none_right_eq_some.mp h
    cases heq
    obtain ⟨blank, hblank, hr⟩ := exists_blank_append_dropBlank r
    exact ⟨blank, hblank, hmark ▸ congrArg (c :: ·) hr⟩
  · cases h

theorem exists_of_dropName (h : dropName s = some t) :
    ∃ name blank, name.map Char.toLower = ['$', 'o', 'i', 'd'] ∧ IsBlankText blank ∧
      s = name ++ (blank ++ t) := by
  unfold dropName at h
  split at h
  · next a b c d r =>
    obtain ⟨hname, h⟩ := Option.ite_none_right_eq_some.mp h
    cases h
    obtain ⟨blank, hblank, hr⟩ := exists_blank_append_dropBlank r
    exact ⟨[a, b, c, d], blank, hname, hblank, congrArg ([a, b, c, d] ++ ·) hr⟩
  · cases h

theorem dropMark_append (mark : Char) (hblank : IsBlankText blank) (ht : IsSolid t) :
    dropMark mark ([mark] ++ (blank ++ t)) = some t := by
  rw [List.singleton_append, dropMark, if_pos rfl, dropBlank_append hblank, ht.dropBlank]

theorem dropName_append {name : List Char} (hname : name.map Char.toLower = ['$', 'o', 'i', 'd'])
    (hblank : IsBlankText blank) (ht : IsSolid t) : dropName (name ++ (blank ++ t)) = some t := by
  obtain ⟨a, _, rfl, ha, h⟩ := List.map_eq_cons_iff.mp hname
  obtain ⟨b, _, rfl, hb, h⟩ := List.map_eq_cons_iff.mp h
  obtain ⟨c, _, rfl, hc, h⟩ := List.map_eq_cons_iff.mp h
  obtain ⟨d, _, rfl, hd, h⟩ := List.map_eq_cons_iff.mp h
  obtain rfl := List.map_eq_nil_iff.mp h
  refine (if_pos hname).trans (congrArg some ?_)
  exact (dropBlank_append hblank t).trans ht.dropBlank

/-- A mark is taken off a row of tokens. -/
theorem Spaced.dropMark {mark : Char} (h : Spaced ([mark] :: next :: ts) s) (hnext : IsSolid next)
    (rest : List Char) :
    ∃ t, Spaced (next :: ts) t ∧ ScriptText.dropMark mark (s ++ rest) = some (t ++ rest) := by
  obtain ⟨blank, t, hblank, ht, rfl⟩ := h.uncons
  refine ⟨t, ht, ?_⟩
  rw [List.append_assoc, List.append_assoc]
  exact dropMark_append mark hblank ((ht.isSolid hnext).append rest)

theorem Spaced.dropName {name : List Char} (h : Spaced (name :: next :: ts) s)
    (hname : name.map Char.toLower = ['$', 'o', 'i', 'd']) (hnext : IsSolid next)
    (rest : List Char) :
    ∃ t, Spaced (next :: ts) t ∧ ScriptText.dropName (s ++ rest) = some (t ++ rest) := by
  obtain ⟨blank, t, hblank, ht, rfl⟩ := h.uncons
  refine ⟨t, ht, ?_⟩
  rw [List.append_assoc, List.append_assoc]
  exact dropName_append hname hblank ((ht.isSolid hnext).append rest)

/-! ## Characters of tokens -/

/-- The name starts with a character that is not blank. -/
theorem isBlank_of_toLower (h : c.toLower = '$') : isBlank c = false := by
  rw [eq_of_toLower (by decide) h]
  decide

theorem isIdChar_of_mem (h : IsIdentifier id) (hc : c ∈ id) : isIdChar c = true := by
  rw [isIdChar, Bool.or_eq_true, decide_eq_true_eq]
  exact h.letters c hc

theorem isIdChar_of_isBlank (h : isBlank c = true) : isIdChar c = false := by
  rw [isIdChar, Bool.or_eq_false_iff, decide_eq_false_iff_not]
  constructor
  · apply eq_false_of_ne_true
    intro hletter
    rw [isBlank_of_isAlphanumeric hletter] at h
    cases h
  · rintro rfl
    simp [isBlank, inRanges, blankRanges] at h

/-- An id ends at the blank text or the quote behind it. -/
theorem span_id (hid : IsIdentifier id) (hblank : IsBlankText blank) (t : List Char) :
    (id ++ (blank ++ '"' :: t)).takeWhile isIdChar = id ∧
      (id ++ (blank ++ '"' :: t)).dropWhile isIdChar = blank ++ '"' :: t := by
  have hletters : ∀ c ∈ id, isIdChar c = true := fun c hc => isIdChar_of_mem hid hc
  obtain ⟨d, r, hbehind, hd⟩ : ∃ d r, blank ++ '"' :: t = d :: r ∧ isIdChar d = false := by
    cases blank with
    | nil => exact ⟨'"', t, rfl, by decide⟩
    | cons d r => exact ⟨d, _, rfl, isIdChar_of_isBlank (hblank d List.mem_cons_self)⟩
  have hspan : (id ++ d :: r).span isIdChar = (id, d :: r) := span_append_cons hletters hd
  rw [← hbehind, List.span_eq_takeWhile_dropWhile] at hspan
  exact Prod.mk.inj hspan

/-! ## Reading -/

/-- What stands behind the marks and the name in front of an id. -/
def behindMarks (s : List Char) : Option (List Char) := do
  let s ← dropMark '{' s
  let s ← dropMark '"' s
  let s ← dropName s
  let s ← dropMark '"' s
  let s ← dropMark ':' s
  dropMark '"' s

/-- The id at the front of a text and the text behind the marks that end its literal. -/
def readId (s : List Char) : Option (List Char × List Char) :=
  let id := s.takeWhile isIdChar
  if id.isEmpty then none
  else
    (dropMark '"' (Text.dropBlank (s.dropWhile isIdChar))).bind fun s =>
      match s with
      | '}' :: rest => some (id.map Char.toLower, rest)
      | _ => none

theorem readLiteral_eq (s : List Char) : readLiteral s = (behindMarks s).bind readId := by
  simp only [readLiteral, behindMarks, Option.bind_eq_bind, Option.bind_assoc]
  rfl

/-- A row of tokens stands at the front of a text. -/
def Begins (ts : List (List Char)) (s rest : List Char) : Prop :=
  ∃ l, Spaced ts l ∧ s = l ++ rest

theorem Begins.cons (hblank : IsBlankText blank) (h : Begins ts t rest) :
    Begins (token :: ts) (token ++ (blank ++ t)) rest := by
  obtain ⟨l, hl, rfl⟩ := h
  exact ⟨token ++ (blank ++ l), .cons hblank hl, by simp⟩

/-- The marks and the name are tokens of a row. -/
theorem begins_of_behindMarks (h : behindMarks s = some t) (ht : Begins ts t rest) :
    ∃ name, name.map Char.toLower = ['$', 'o', 'i', 'd'] ∧
      Begins (['{'] :: ['"'] :: name :: ['"'] :: [':'] :: ['"'] :: ts) s rest := by
  obtain ⟨s₁, h₁, h⟩ := Option.bind_eq_some_iff.mp h
  obtain ⟨s₂, h₂, h⟩ := Option.bind_eq_some_iff.mp h
  obtain ⟨s₃, h₃, h⟩ := Option.bind_eq_some_iff.mp h
  obtain ⟨s₄, h₄, h⟩ := Option.bind_eq_some_iff.mp h
  obtain ⟨s₅, h₅, h₆⟩ := Option.bind_eq_some_iff.mp h
  obtain ⟨_, hb₁, rfl⟩ := exists_of_dropMark h₁
  obtain ⟨_, hb₂, rfl⟩ := exists_of_dropMark h₂
  obtain ⟨name, _, hname, hb₃, rfl⟩ := exists_of_dropName h₃
  obtain ⟨_, hb₄, rfl⟩ := exists_of_dropMark h₄
  obtain ⟨_, hb₅, rfl⟩ := exists_of_dropMark h₅
  obtain ⟨_, hb₆, rfl⟩ := exists_of_dropMark h₆
  exact ⟨name, hname, .cons hb₁ (.cons hb₂ (.cons hb₃ (.cons hb₄ (.cons hb₅ (.cons hb₆ ht)))))⟩

theorem begins_of_readId (h : readId s = some (id', rest)) :
    ∃ id, IsIdentifier id ∧ id' = id.map Char.toLower ∧ Begins [id, ['"'], ['}']] s rest := by
  obtain ⟨hnonempty, h⟩ := Option.ite_none_left_eq_some.mp h
  obtain ⟨t, ht, h⟩ := Option.bind_eq_some_iff.mp h
  split at h
  · next rest' =>
    cases h
    obtain ⟨blank, hblank, hquote⟩ := exists_of_dropMark ht
    obtain ⟨gap, hgap, hbehind⟩ := exists_blank_append_dropBlank (s.dropWhile isIdChar)
    have hs : s = s.takeWhile isIdChar ++ (gap ++ (['"'] ++ (blank ++ '}' :: rest))) := by
      rw [← hquote, ← hbehind, List.takeWhile_append_dropWhile]
    refine ⟨s.takeWhile isIdChar, ⟨?_, ?_⟩, rfl, ?_⟩
    · rwa [List.isEmpty_iff] at hnonempty
    · intro c hc
      have hletter := List.mem_takeWhile_imp hc
      rwa [isIdChar, Bool.or_eq_true, decide_eq_true_eq] at hletter
    · have hlast : Begins [['}']] ('}' :: rest) rest := ⟨['}'], .last _, rfl⟩
      have hquoted : Begins [['"'], ['}']] (['"'] ++ (blank ++ '}' :: rest)) rest :=
        .cons hblank hlast
      have hrow : Begins [s.takeWhile isIdChar, ['"'], ['}']]
          (s.takeWhile isIdChar ++ (gap ++ (['"'] ++ (blank ++ '}' :: rest)))) rest :=
        .cons hgap hquoted
      rwa [← hs] at hrow
  · cases h

/-- The marks in front of an id are taken off a literal, whatever comes behind it. -/
theorem IsLiteral.exists_behindMarks (h : IsLiteral l id) (rest : List Char) :
    ∃ t, Spaced [id, ['"'], ['}']] t ∧ behindMarks (l ++ rest) = some (t ++ rest) := by
  obtain ⟨hid, name, hname, h₀⟩ := h
  have hquote : IsSolid ['"'] := ⟨_, _, rfl, by decide⟩
  have hcolon : IsSolid [':'] := ⟨_, _, rfl, by decide⟩
  have hsolid : IsSolid name := by
    obtain ⟨a, r, rfl, ha, -⟩ := List.map_eq_cons_iff.mp hname
    exact ⟨a, r, rfl, isBlank_of_toLower ha⟩
  have hidSolid : IsSolid id := by
    obtain ⟨c, r, rfl⟩ := List.exists_cons_of_ne_nil hid.nonempty
    exact ⟨c, r, rfl, hid.isBlank_eq_false List.mem_cons_self⟩
  obtain ⟨s₁, hs₁, h₁⟩ := h₀.dropMark hquote rest
  obtain ⟨s₂, hs₂, h₂⟩ := hs₁.dropMark hsolid rest
  obtain ⟨s₃, hs₃, h₃⟩ := hs₂.dropName hname hquote rest
  obtain ⟨s₄, hs₄, h₄⟩ := hs₃.dropMark hcolon rest
  obtain ⟨s₅, hs₅, h₅⟩ := hs₄.dropMark hquote rest
  obtain ⟨s₆, hs₆, h₆⟩ := hs₅.dropMark hidSolid rest
  refine ⟨s₆, hs₆, ?_⟩
  simp only [behindMarks, h₁, h₂, h₃, h₄, h₅, h₆, Option.bind_eq_bind, Option.bind_some]

theorem Spaced.span_id (hid : IsIdentifier id) (h : Spaced [id, ['"'], ['}']] s)
    (rest : List Char) :
    ∃ blank t, IsBlankText blank ∧ Spaced [['"'], ['}']] t ∧
      (s ++ rest).takeWhile isIdChar = id ∧
      (s ++ rest).dropWhile isIdChar = blank ++ (t ++ rest) := by
  obtain ⟨blank, t, hblank, ht, rfl⟩ := h.uncons
  obtain ⟨gap, t', -, -, heq⟩ := ht.uncons
  have hspan := ScriptText.span_id hid hblank (gap ++ t' ++ rest)
  refine ⟨blank, t, hblank, ht, ?_⟩
  rw [heq]
  simpa using hspan

theorem readLiteral_append (h : IsLiteral l id) (rest : List Char) :
    readLiteral (l ++ rest) = some (id.map Char.toLower, rest) := by
  obtain ⟨s, hs, hmarks⟩ := h.exists_behindMarks rest
  obtain ⟨blank, t, hblank, ht, htake, hdrop⟩ := hs.span_id h.identifier rest
  have hquote : IsSolid ['"'] := ⟨_, _, rfl, by decide⟩
  have hbrace : IsSolid ['}'] := ⟨_, _, rfl, by decide⟩
  obtain ⟨t', ht', hmark⟩ := ht.dropMark hbrace rest
  have hempty : id.isEmpty = false := by
    rw [List.isEmpty_eq_false_iff]
    exact h.identifier.nonempty
  obtain rfl := ht'.eq_of_singleton
  rw [readLiteral_eq, hmarks, Option.bind_some, readId, htake, hdrop, dropBlank_append hblank,
    ((ht.isSolid hquote).append rest).dropBlank, hmark, hempty]
  rfl

/-- What is read is a literal, with its id in lower case, and every literal is read. -/
theorem readLiteral_eq_some_iff :
    readLiteral s = some (id', rest) ↔
      ∃ l id, IsLiteral l id ∧ id' = id.map Char.toLower ∧ s = l ++ rest := by
  constructor
  · intro h
    rw [readLiteral_eq] at h
    obtain ⟨t, hmarks, hid⟩ := Option.bind_eq_some_iff.mp h
    obtain ⟨id, hidentifier, rfl, hbegins⟩ := begins_of_readId hid
    obtain ⟨name, hname, l, hl, rfl⟩ := begins_of_behindMarks hmarks hbegins
    exact ⟨l, id, ⟨hidentifier, name, hname, hl⟩, rfl, rfl⟩
  · rintro ⟨l, id, hl, rfl, rfl⟩
    exact readLiteral_append hl rest

/-! ## Literals inside a text -/

/-- Where a literal starts, one literal with one id starts. -/
theorem IsLiteral.unique (h : IsLiteral l id) (h' : IsLiteral l' id')
    (heq : l ++ rest = l' ++ rest') : l = l' ∧ id = id' ∧ rest = rest' := by
  have hread := readLiteral_append h rest
  rw [heq, readLiteral_append h' rest'] at hread
  obtain rfl : rest' = rest := (Prod.mk.inj (Option.some.inj hread)).2
  obtain rfl := List.append_cancel_right heq
  refine ⟨rfl, ?_, rfl⟩
  obtain ⟨s, hs, hmarks⟩ := h.exists_behindMarks rest'
  obtain ⟨s', hs', hmarks'⟩ := h'.exists_behindMarks rest'
  obtain ⟨_, _, -, -, htake, -⟩ := hs.span_id h.identifier rest'
  obtain ⟨_, _, -, -, htake', -⟩ := hs'.span_id h'.identifier rest'
  rw [hmarks] at hmarks'
  rw [← htake, ← htake', Option.some.inj hmarks']

/-- A literal opens with a brace, and behind it stand neither another one nor a parenthesis. -/
theorem IsLiteral.exists_cons (h : IsLiteral l id) : ∃ r, l = '{' :: r ∧ '{' ∉ r ∧ '(' ∉ l := by
  obtain ⟨hid, name, hname, hrow⟩ := h
  obtain ⟨blank, t, hblank, ht, rfl⟩ := hrow.uncons
  have hnot : ∀ c, isBlank c = false → isIdChar c = false → c.toLower ∉ ['$', 'o', 'i', 'd'] →
      c ∉ ['"', ':', '}'] → c ∉ blank ++ t := by
    intro c hc hletter hlower hmark
    have hnameNot : c ∉ name := fun hmem => hlower (hname ▸ List.mem_map_of_mem hmem)
    have hidNot : c ∉ id := fun hmem => by
      rw [isIdChar_of_mem hid hmem] at hletter
      cases hletter
    simp only [List.mem_cons, List.not_mem_nil, or_false, not_or] at hmark
    rw [List.mem_append, not_or]
    refine ⟨hblank.not_mem hc, ht.not_mem hc ?_⟩
    simp [hnameNot, hidNot, hmark]
  have hparenthesis := hnot '(' (by decide) (by decide) (by decide) (by decide)
  exact ⟨blank ++ t, rfl, hnot '{' (by decide) (by decide) (by decide) (by decide),
    List.not_mem_cons_of_ne_of_not_mem (by decide) hparenthesis⟩

theorem IsLiteral.ne_nil (h : IsLiteral l id) : l ≠ [] := by
  obtain ⟨r, rfl, -⟩ := h.exists_cons
  exact List.cons_ne_nil _ _

/-- A literal ends with a brace. -/
theorem IsLiteral.exists_concat (h : IsLiteral l id) : ∃ r, l = r ++ ['}'] := by
  obtain ⟨-, name, -, hrow⟩ := h
  obtain ⟨r, heq⟩ : ['}'] <:+ l := hrow.suffix rfl
  exact ⟨r, heq.symm⟩

end ShellQuery.ScriptText
