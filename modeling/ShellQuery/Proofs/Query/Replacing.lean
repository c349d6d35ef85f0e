import ShellQuery.Proofs.Query.Literals
import ShellQuery.Proofs.Text.LetterCase

/-!
# The literals of a script and their calls

The main statement is `replaceIds_replaces_literals`: a script splits in one way at its literals,
and the program text has a call in the place of each of them, the text between them as it was, and
no literal.

`Split.IsOf` says what it is to split a text at its literals, without the order in which the
characters are read.  One character of a text and one literal at its front each determine the split
of the text by that of the rest (`Split.isOf_cons_iff`, `Split.isOf_append_iff`).  The calls make
no new literal, as the parenthesis of a call stands in no literal (`Free.append_cons`), no literal
ends in the letters in front of it (`Free.append`) and none starts in the rest of the call
(`Free.prepend`).
-/

namespace ShellQuery.ScriptText

open Text

variable {s a b l id id' before after literal : List Char} {c : Char}

/-! ## Splits -/

/-- A literal of a text with its id, and the text behind it up to the next literal. -/
structure Piece where
  literal : List Char
  id : List Char
  after : List Char

/-- The text in front of the first literal, and the literals in order. -/
structure Split where
  before : List Char
  pieces : List Piece

namespace Split

variable {split : Split} {p : Piece} {ps : List Piece}

/-- The text that is split. -/
def text (split : Split) : List Char :=
  split.before ++ split.pieces.flatMap fun p => p.literal ++ p.after

/-- The text with a call for each literal. -/
def replaced (split : Split) : List Char :=
  split.before ++ split.pieces.flatMap fun p => idCall (p.id.map Char.toLower) ++ p.after

/-- The pieces are the literals of the text, and wherever a literal stands in it, there is its
    piece. -/
structure IsOf (split : Split) (s : List Char) : Prop where
  text_eq : split.text = s
  isLiteral : ∀ p ∈ split.pieces, IsLiteral p.literal p.id
  all : ∀ before literal id after, s = before ++ (literal ++ after) → IsLiteral literal id →
    ∃ front p back, split.pieces = front ++ p :: back ∧ text ⟨split.before, front⟩ = before ∧
      p.literal = literal

theorem text_nil (before : List Char) : text ⟨before, []⟩ = before := by
  rw [text, List.flatMap_nil, List.append_nil]

/-- A text ends with the text that starts behind its first literal. -/
theorem text_cons (before : List Char) (p : Piece) (ps : List Piece) :
    text ⟨before, p :: ps⟩ = before ++ (p.literal ++ text ⟨p.after, ps⟩) := by
  simp only [text, List.flatMap_cons, List.append_assoc]

theorem replaced_cons (before : List Char) (p : Piece) (ps : List Piece) :
    replaced ⟨before, p :: ps⟩ =
      before ++ (idCall (p.id.map Char.toLower) ++ replaced ⟨p.after, ps⟩) := by
  simp only [replaced, List.flatMap_cons, List.append_assoc]

theorem prefix_text (split : Split) : split.before <+: split.text :=
  List.prefix_append _ _

/-! ## One step of a split -/

theorem isOf_nil : IsOf ⟨[], []⟩ [] where
  text_eq := rfl
  isLiteral := List.forall_mem_nil _
  all before literal id after heq h := by
    obtain ⟨-, hnil⟩ := List.append_eq_nil_iff.mp heq.symm
    exact absurd (List.append_eq_nil_iff.mp hnil).1 h.ne_nil

theorem IsOf.eq_nil (h : split.IsOf []) : split = ⟨[], []⟩ := by
  obtain ⟨before, _ | ⟨p, ps⟩⟩ := split
  · rw [← text_nil before, h.text_eq]
  · have htext := h.text_eq
    rw [text_cons, List.append_eq_nil_iff, List.append_eq_nil_iff] at htext
    exact absurd htext.2.1 (h.isLiteral p List.mem_cons_self).ne_nil

/-- A character that starts no literal stands in front of the first one. -/
theorem isOf_cons_iff (hread : readLiteral (c :: s) = none) :
    split.IsOf (c :: s) ↔ ∃ before, split.before = c :: before ∧ IsOf ⟨before, split.pieces⟩ s := by
  have hnone : ∀ literal id after, c :: s = literal ++ after → ¬ IsLiteral literal id := by
    intro literal id after heq h
    rw [heq, readLiteral_append h] at hread
    cases hread
  obtain ⟨before, pieces⟩ := split
  constructor
  · intro h
    cases before with
    | nil =>
      -- the text would start with the first literal
      cases pieces with
      | nil => cases h.text_eq
      | cons p ps =>
        exact absurd (h.isLiteral p List.mem_cons_self) (hnone _ _ _ (h.text_eq.symm.trans
          (text_cons [] p ps)))
    | cons d before =>
      obtain ⟨rfl, htext⟩ := List.cons_eq_cons.mp h.text_eq
      refine ⟨before, rfl, htext, h.isLiteral, ?_⟩
      intro b literal id after heq hliteral
      obtain ⟨front, p, back, hpieces, hfront, hp⟩ :=
        h.all (d :: b) literal id after (congrArg (d :: ·) heq) hliteral
      exact ⟨front, p, back, hpieces, List.tail_eq_of_cons_eq hfront, hp⟩
  · rintro ⟨before, rfl, h⟩
    refine ⟨congrArg (c :: ·) h.text_eq, h.isLiteral, ?_⟩
    intro b literal id after heq hliteral
    cases b with
    | nil => exact absurd hliteral (hnone _ _ _ heq)
    | cons d b =>
      obtain ⟨rfl, hs⟩ := List.cons_eq_cons.mp heq
      obtain ⟨front, p, back, hpieces, hfront, hp⟩ := h.all b literal id after hs hliteral
      exact ⟨front, p, back, hpieces, congrArg (c :: ·) hfront, hp⟩

/-- A literal inside a text that starts with one is that one or stands in the rest. -/
theorem eq_or_exists_of_append (hl : IsLiteral l id) (hliteral : IsLiteral literal id')
    (heq : l ++ s = before ++ (literal ++ after)) :
    before = [] ∨ ∃ b, before = l ++ b ∧ s = b ++ (literal ++ after) := by
  obtain ⟨r, rfl, hr, -⟩ := hl.exists_cons
  obtain ⟨r', rfl, -⟩ := hliteral.exists_cons
  obtain ⟨b, hbefore, hs⟩ | ⟨b, hl, hbehind⟩ := List.append_eq_append_iff.mp heq
  · exact .inr ⟨b, hbefore, hs⟩
  · cases b with
    | nil =>
      exact .inr ⟨[], by simpa using hl.symm, by simpa using hbehind.symm⟩
    | cons d b =>
      -- the brace of the second literal stands in the first one
      obtain ⟨rfl, -⟩ := List.cons_eq_cons.mp hbehind
      obtain ⟨rfl, -⟩ | ⟨b', rfl, rfl⟩ := List.cons_eq_append_iff.mp hl
      · exact .inl rfl
      · exact absurd (by simp) hr

/-- What is behind the first literal is split as the whole is. -/
theorem IsOf.behind (h : IsOf ⟨before, p :: ps⟩ (before ++ (p.literal ++ s))) :
    IsOf ⟨p.after, ps⟩ s := by
  have htext := h.text_eq
  rw [text_cons, List.append_cancel_left_eq, List.append_cancel_left_eq] at htext
  refine ⟨htext, fun q hq => h.isLiteral q (List.mem_cons_of_mem p hq), ?_⟩
  intro b literal id after heq hliteral
  obtain ⟨front, q, back, hpieces, hfront, hq⟩ :=
    h.all (before ++ (p.literal ++ b)) literal id after (by simp [heq]) hliteral
  obtain ⟨rfl, hpieces⟩ | ⟨front, rfl, rfl⟩ := List.cons_eq_append_iff.mp hpieces
  · rw [text_nil, List.self_eq_append_right, List.append_eq_nil_iff] at hfront
    exact absurd hfront.1 (h.isLiteral p List.mem_cons_self).ne_nil
  · rw [text_cons, List.append_cancel_left_eq, List.append_cancel_left_eq] at hfront
    exact ⟨front, q, back, rfl, hfront, hq⟩

/-- A literal at the front is the first piece. -/
theorem isOf_append_iff (hl : IsLiteral l id) :
    split.IsOf (l ++ s) ↔ ∃ after ps, split = ⟨[], ⟨l, id, after⟩ :: ps⟩ ∧ IsOf ⟨after, ps⟩ s := by
  constructor
  · intro h
    obtain ⟨before, pieces⟩ := split
    obtain ⟨front, ⟨literal, id', after⟩, back, rfl, hfront, rfl⟩ := h.all [] l id s rfl hl
    obtain ⟨rfl, hfront⟩ := List.append_eq_nil_iff.mp hfront
    obtain rfl : front = [] := by
      cases front with
      | nil => rfl
      | cons p ps =>
        rw [List.flatMap_cons, List.append_eq_nil_iff, List.append_eq_nil_iff] at hfront
        exact absurd hfront.1.1 (h.isLiteral p List.mem_cons_self).ne_nil
    obtain ⟨-, rfl, -⟩ := (h.isLiteral _ List.mem_cons_self).unique hl
      (rfl : literal ++ s = literal ++ s)
    exact ⟨after, back, rfl, h.behind⟩
  · rintro ⟨after, ps, rfl, h⟩
    refine ⟨?_, List.forall_mem_cons.mpr ⟨hl, h.isLiteral⟩, ?_⟩
    · rw [text_cons, h.text_eq, List.nil_append]
    · intro b literal id' behind heq hliteral
      obtain rfl | ⟨b, rfl, hs⟩ := eq_or_exists_of_append hl hliteral heq
      · obtain ⟨rfl, -, -⟩ := hl.unique hliteral heq
        exact ⟨[], _, ps, rfl, rfl, rfl⟩
      · obtain ⟨front, p, back, rfl, hfront, hp⟩ := h.all b literal id' behind hs hliteral
        refine ⟨⟨l, id, after⟩ :: front, p, back, rfl, ?_, hp⟩
        rw [text_cons, hfront, List.nil_append]

end Split

/-! ## Passing over a text -/

/-- A text has one split, and the calls stand in the places of its literals. -/
theorem exists_split (s : List Char) :
    ∃ split : Split, split.IsOf s ∧ (∀ other : Split, other.IsOf s → other = split) ∧
      replaceIds s = split.replaced := by
  -- the induction is on the length, as a literal is passed as a whole
  induction hn : s.length using Nat.strong_induction_on generalizing s with
  | _ n ih =>
    subst hn
    cases s with
    | nil => exact ⟨⟨[], []⟩, Split.isOf_nil, fun _ h => h.eq_nil, rfl⟩
    | cons c s =>
      cases hread : readLiteral (c :: s) with
      | none =>
        obtain ⟨⟨before, pieces⟩, hsplit, hunique, hreplaced⟩ :=
          ih s.length (Nat.lt_succ_self _) s rfl
        refine ⟨⟨c :: before, pieces⟩, ?_, ?_, ?_⟩
        · exact (Split.isOf_cons_iff hread).mpr ⟨before, rfl, hsplit⟩
        · rintro ⟨_, pieces'⟩ hother
          obtain ⟨before', rfl, h⟩ := (Split.isOf_cons_iff hread).mp hother
          cases hunique _ h
          rfl
        · rw [replaceIds_cons hread, hreplaced]
          rfl
      | some found =>
        obtain ⟨_, rest⟩ := found
        obtain ⟨l, id, hl, rfl, heq⟩ := readLiteral_eq_some_iff.mp hread
        have hrest := (suffix_of_readLiteral hread).length_le
        obtain ⟨⟨after, ps⟩, hsplit, hunique, hreplaced⟩ :=
          ih rest.length (Nat.lt_succ_of_le hrest) rest rfl
        refine ⟨⟨[], ⟨l, id, after⟩ :: ps⟩, ?_, ?_, ?_⟩
        · rw [heq]
          exact (Split.isOf_append_iff hl).mpr ⟨after, ps, rfl, hsplit⟩
        · intro other hother
          rw [heq] at hother
          obtain ⟨after', ps', rfl, h⟩ := (Split.isOf_append_iff hl).mp hother
          cases hunique _ h
          rfl
        · rw [replaceIds_of_readLiteral hread, hreplaced, Split.replaced_cons, List.nil_append]

/-! ## Calls -/

/-- A call is a word in front of its parenthesis, and its id in quotes behind that. -/
theorem idCall_append (id rest : List Char) :
    idCall id ++ rest = "ObjectId".toList ++ '(' :: ('"' :: id ++ (['"', ')'] ++ rest)) := by
  have hfront : "ObjectId(\"".toList = "ObjectId".toList ++ ['(', '"'] := by decide
  have hback : "\")".toList = ['"', ')'] := by decide
  unfold idCall
  rw [hfront, hback]
  simp only [List.append_assoc, List.cons_append, List.nil_append]

/-- An id in lower case has no brace. -/
theorem brace_not_mem (h : IsIdentifier id) : '{' ∉ id.map Char.toLower := by
  intro hmem
  obtain ⟨c, hc, hlower⟩ := List.mem_map.mp hmem
  obtain rfl := eq_of_toLower (by decide) hlower
  exact h.not_mem rfl (by decide) hc

/-! ## Text without a literal -/

/-- No literal stands in the text. -/
def Free (s : List Char) : Prop :=
  ∀ before literal id after, s = before ++ (literal ++ after) → ¬ IsLiteral literal id

/-- A parenthesis between two texts stands in no literal. -/
theorem Free.append_cons (ha : Free a) (hb : Free b) : Free (a ++ '(' :: b) := by
  intro before literal id after heq h
  obtain ⟨r, hliteral, -, hparenthesis⟩ := h.exists_cons
  obtain ⟨t, -, ht⟩ | ⟨t, rfl, ht⟩ := List.append_eq_append_iff.mp heq
  · obtain ⟨-, ht⟩ | ⟨t, -, rfl⟩ := List.cons_eq_append_iff.mp ht
    · rw [hliteral] at ht
      cases ht
    · exact hb t literal id after rfl h
  · obtain ⟨u, rfl, -⟩ | ⟨u, rfl, hu⟩ := List.append_eq_append_iff.mp ht
    · exact ha before literal id u rfl h
    · obtain ⟨rfl, -⟩ | ⟨u, rfl, -⟩ := List.cons_eq_append_iff.mp hu
      · exact ha before (t ++ []) id [] (by simp) h
      · exact hparenthesis (by simp)

/-- No literal ends in a text without a closing brace. -/
theorem Free.append (ha : Free a) (hb : '}' ∉ b) : Free (a ++ b) := by
  intro before literal id after heq h
  obtain ⟨r, rfl⟩ := h.exists_concat
  have hbrace : a ++ b = (before ++ r) ++ '}' :: after := by simp [heq]
  obtain ⟨t, -, rfl⟩ | ⟨t, rfl, ht⟩ := List.append_eq_append_iff.mp hbrace
  · exact hb (by simp)
  · obtain ⟨-, rfl⟩ | ⟨t, rfl, -⟩ := List.cons_eq_append_iff.mp ht
    · exact hb List.mem_cons_self
    · exact ha before (r ++ ['}']) id t (by simp) h

/-- No literal starts in a text without an opening brace. -/
theorem Free.prepend (ha : '{' ∉ a) (hb : Free b) : Free (a ++ b) := by
  intro before literal id after heq h
  obtain ⟨r, hliteral, -⟩ := h.exists_cons
  obtain ⟨t, -, ht⟩ | ⟨t, rfl, ht⟩ := List.append_eq_append_iff.mp heq
  · exact hb t literal id after ht h
  · cases t with
    | nil => exact hb [] literal id after ht.symm h
    | cons d t =>
      obtain ⟨rfl, -⟩ := List.cons_eq_cons.mp (hliteral ▸ ht.symm)
      exact ha (by simp)

theorem replaceIds_of_free (h : Free s) : replaceIds s = s := by
  induction s with
  | nil => rfl
  | cons c s ih =>
    have hread : readLiteral (c :: s) = none := by
      rw [Option.eq_none_iff_forall_not_mem]
      rintro ⟨id', rest⟩ hread
      obtain ⟨literal, id, hliteral, -, heq⟩ := readLiteral_eq_some_iff.mp hread
      exact h [] literal id rest heq hliteral
    have hrest : Free s := fun before literal id after heq =>
      h (c :: before) literal id after (congrArg (c :: ·) heq)
    rw [replaceIds_cons hread, ih hrest]

namespace Split

variable {split : Split}

/-- No literal stands in front of the first one. -/
theorem IsOf.free_before (h : split.IsOf s) : Free split.before := by
  intro before literal id after heq hliteral
  obtain ⟨behind, htext⟩ := split.prefix_text
  rw [h.text_eq, heq, List.append_assoc, List.append_assoc] at htext
  obtain ⟨front, -, -, -, hfront, -⟩ := h.all before literal id _ htext.symm hliteral
  have hle : split.before.length ≤ before.length :=
    hfront ▸ (prefix_text ⟨split.before, front⟩).length_le
  have hlength := congrArg List.length heq
  rw [List.length_append, List.length_append] at hlength
  have hpositive := List.length_pos_iff.mpr hliteral.ne_nil
  omega

/-- The calls make no literal out of the text between them. -/
theorem IsOf.free_replaced (h : split.IsOf s) : Free split.replaced := by
  obtain ⟨before, pieces⟩ := split
  induction pieces generalizing before s with
  | nil =>
    rw [replaced, List.flatMap_nil, List.append_nil]
    exact h.free_before
  | cons p ps ih =>
    have hrest : Free (replaced ⟨p.after, ps⟩) := by
      have htext := h.text_eq
      rw [text_cons] at htext
      subst htext
      exact ih _ h.behind
    have hid := brace_not_mem (h.isLiteral p List.mem_cons_self).identifier
    have hcall := (hrest.prepend (a := ['"', ')']) (by decide)).prepend
      (List.not_mem_cons_of_ne_of_not_mem (by decide) hid : '{' ∉ '"' :: p.id.map Char.toLower)
    have hfree := (h.free_before.append (b := "ObjectId".toList) (by decide)).append_cons hcall
    rwa [replaced_cons, idCall_append, ← List.append_assoc]

end Split

/-! ## Scripts -/

/-- A script splits in one way at its literals, each becomes the call with its id in lower case, and
    everything else stays; no literal is left, and so nothing more is replaced. -/
theorem replaceIds_replaces_literals (s : List Char) :
    ∃ split : Split, split.IsOf s ∧ (∀ other : Split, other.IsOf s → other = split) ∧
      replaceIds s = split.replaced ∧
      (∀ before literal id after,
        replaceIds s = before ++ (literal ++ after) → ¬ IsLiteral literal id) ∧
      replaceIds (replaceIds s) = replaceIds s := by
  obtain ⟨split, hsplit, hunique, hreplaced⟩ := exists_split s
  have hfree : Free (replaceIds s) := hreplaced ▸ hsplit.free_replaced
  exact ⟨split, hsplit, hunique, hreplaced, hfree, replaceIds_of_free hfree⟩

-- the outer brace starts no literal, and the name and the id are written in capitals
example : replaceIds "f(\x7b\x7b\"$OID\" : \"AF\"\x7d\x7d)".toList =
    "f(\x7bObjectId(\"af\")\x7d)".toList := by
  rfl

end ShellQuery.ScriptText
