import ShellQuery.Proofs.Outcome
import ShellQuery.Query.Bracket

/-!
# Balanced texts

`Balanced` says without a scan which texts may stand between a pair of brackets: every bracket in
them has its partner, apart from brackets inside quoted parts.  The scan for a closing bracket
finds exactly the balanced text behind the opening one: `group_eq_ok_iff`.

While brackets are open, the text up to the last closing bracket is a sequence of balanced texts
with the brackets that are due between them.  `Closes` is this invariant of the scan.
-/

namespace ShellQuery.Bracket

/-! ## Texts -/

/-- What stands between a quote and the next quote of its kind that no backslash takes. -/
inductive QuotedText (quote : Char) : List Char → Prop where
  | nil : QuotedText quote []
  | plain {c : Char} {s : List Char} (hslash : c ≠ '\\') (hquote : c ≠ quote)
      (hs : QuotedText quote s) : QuotedText quote (c :: s)
  | escape {c : Char} {s : List Char} (hs : QuotedText quote s) :
      QuotedText quote ('\\' :: c :: s)

/-- A text in which each bracket outside of quotes has its partner. -/
inductive Balanced : List Char → Prop where
  | nil : Balanced []
  | plain {c : Char} {s : List Char} (hquote : isQuote c = false) (hopen : closer? c = none)
      (hclose : isCloser c = false) (hs : Balanced s) : Balanced (c :: s)
  | quoted {q : Char} {body s : List Char} (hq : isQuote q = true) (hbody : QuotedText q body)
      (hs : Balanced s) : Balanced (q :: (body ++ q :: s))
  | group {o c : Char} {l s : List Char} (ho : closer? o = some c) (hl : Balanced l)
      (hs : Balanced s) : Balanced (o :: (l ++ c :: s))

/-- The text before the last of the closing brackets `closer :: due`, the others of which stand in
    it in their order. -/
inductive Closes : Char → List Char → List Char → Prop where
  | last {closer : Char} {l : List Char} (hl : Balanced l) : Closes closer [] l
  | next {closer outer : Char} {due l s : List Char} (hl : Balanced l)
      (hs : Closes outer due s) : Closes closer (outer :: due) (l ++ closer :: s)

/-- The last of the closing brackets that are due. -/
def outermost (closer : Char) : List Char → Char
  | [] => closer
  | outer :: due => outermost outer due

/-! ## Plain characters -/

/-- The characters with a meaning for the scan. -/
def marks : List Char :=
  ['"', '\'', '(', ')', '[', ']', '{', '}']

/-- A character without any meaning for the scan. -/
structure IsPlain (c : Char) : Prop where
  quote : isQuote c = false
  opener : closer? c = none
  closer : isCloser c = false

theorem isPlain_of_not_mem {c : Char} (h : c ∉ marks) : IsPlain c := by
  simp only [marks, List.mem_cons, List.not_mem_nil, or_false, not_or] at h
  obtain ⟨hdouble, hsingle, hround, hround', hsquare, hsquare', hcurly, hcurly'⟩ := h
  refine ⟨by simp [isQuote, hdouble, hsingle], ?_, by simp [isCloser, hround', hsquare', hcurly']⟩
  unfold closer?
  split
  · exact absurd rfl hround
  · exact absurd rfl hsquare
  · exact absurd rfl hcurly
  · rfl

/-- The characters of a class to which no mark belongs are plain. -/
theorem isPlain_of_class {p : Char → Bool} (hp : marks.all (fun c => !p c) = true) {c : Char}
    (hc : p c = true) : IsPlain c := by
  apply isPlain_of_not_mem
  intro hmark
  have hnot := List.all_eq_true.mp hp c hmark
  rw [hc] at hnot
  cases hnot

/-! ## Laws of balanced texts -/

/-- A text of plain characters is balanced. -/
theorem balanced_of_plain {s : List Char} (h : ∀ c ∈ s, IsPlain c) : Balanced s := by
  induction s with
  | nil => exact .nil
  | cons c r ih =>
    obtain ⟨hc, hr⟩ := List.forall_mem_cons.mp h
    exact .plain hc.quote hc.opener hc.closer (ih hr)

theorem Balanced.append {s t : List Char} (hs : Balanced s) (ht : Balanced t) :
    Balanced (s ++ t) := by
  induction hs with
  | nil => exact ht
  | plain hquote hopen hclose _ ih => exact .plain hquote hopen hclose ih
  | @quoted q body s hq hbody _ ih =>
    have h : Balanced (q :: (body ++ q :: (s ++ t))) := .quoted hq hbody ih
    simpa using h
  | @group o c l s ho hl _ _ ih =>
    have h : Balanced (o :: (l ++ c :: (s ++ t))) := .group ho hl ih
    simpa using h

/-- A balanced text in a pair of brackets. -/
theorem Balanced.enclosed {o c : Char} {l : List Char} (ho : closer? o = some c)
    (hl : Balanced l) : Balanced (o :: (l ++ [c])) :=
  .group ho hl .nil

/-- What may stand in front of a balanced text may stand in front of the closing brackets. -/
theorem Closes.prepend {p s : List Char} (hp : ∀ l, Balanced l → Balanced (p ++ l))
    {closer : Char} {due : List Char} (hs : Closes closer due s) : Closes closer due (p ++ s) := by
  cases hs with
  | last hl => exact .last (hp _ hl)
  | @next _ outer due l s hl hs =>
    have h : Closes closer (outer :: due) ((p ++ l) ++ closer :: s) := .next (hp l hl) hs
    simpa using h

/-- An opening bracket goes with the first of the closing brackets. -/
theorem Closes.open {o inner closer : Char} {due s : List Char} (ho : closer? o = some inner)
    (hs : Closes inner (closer :: due) s) : Closes closer due (o :: s) := by
  cases hs with
  | @next _ _ _ l s hl hs =>
    have hgroup : ∀ m, Balanced m → Balanced ((o :: (l ++ [inner])) ++ m) :=
      fun m hm => (Balanced.enclosed ho hl).append hm
    simpa using hs.prepend hgroup

/-! ## Soundness of the scan -/

/-- What stands behind the place of the scan, before the last closing bracket. -/
def Tail (closer : Char) (due : List Char) : Mode → List Char → Prop
  | .code, s => Closes closer due s
  | .quoted q, s => ∃ body t, s = body ++ q :: t ∧ QuotedText q body ∧ Closes closer due t
  | .escaped q, s => ∃ c body t, s = c :: (body ++ q :: t) ∧ QuotedText q body ∧ Closes closer due t

/-- A character of a quoted part stands in front of what it leads to: the rest of the part, the
    character behind a backslash, or the text behind the quote. -/
theorem Tail.quoted {closer : Char} {due : List Char} {q c : Char} {s : List Char}
    (h : Tail closer due
      (if c = '\\' then .escaped q else if c = q then .code else .quoted q) s) :
    Tail closer due (.quoted q) (c :: s) := by
  split at h
  · next hslash =>
    -- the backslash takes the character behind it along
    obtain ⟨c', body, t, rfl, hbody, ht⟩ := h
    exact ⟨'\\' :: c' :: body, t, by rw [hslash]; rfl, .escape hbody, ht⟩
  · next hslash =>
    split at h
    · next hquote =>
      -- the quote ends the part, and nothing of the part is left
      exact ⟨[], s, by rw [hquote]; rfl, .nil, h⟩
    · next hquote =>
      obtain ⟨body, t, rfl, hbody, ht⟩ := h
      exact ⟨c :: body, t, rfl, .plain hslash hquote hbody, ht⟩

/-- A scan that succeeds has found the closing brackets in their order.  The induction follows the
    scan, and `Tail` is what it keeps. -/
theorem scan_sound {closer : Char} {due : List Char} {mode : Mode} {position : Nat}
    {s : List Char} {g : Group} (h : scan closer due mode position s = .ok g) :
    s = g.inside ++ outermost closer due :: g.rest ∧ Tail closer due mode g.inside := by
  fun_induction scan closer due mode position s generalizing g with
  | case1 | case2 | case3 =>
    -- the text has ended in one of the three modes
    cases h
  | case4 closer due q position c r ih =>
    -- behind a backslash, where every character is passed over
    obtain ⟨g, hg, rfl⟩ := Outcome.map_eq_ok_iff.mp h
    obtain ⟨rfl, body, t, ht, hbody, hclose⟩ := ih hg
    exact ⟨rfl, c, body, t, by rw [Group.cons, ht], hbody, hclose⟩
  | case5 closer due q position c r mode =>
    -- in a quoted part
    rename_i ih
    obtain ⟨g, hg, rfl⟩ := Outcome.map_eq_ok_iff.mp h
    obtain ⟨rfl, htail⟩ := ih hg
    exact ⟨rfl, htail.quoted⟩
  | case6 closer due position c r hquote ih =>
    -- a quoted part starts and stands in front of the closing brackets as a whole
    obtain ⟨g, hg, rfl⟩ := Outcome.map_eq_ok_iff.mp h
    obtain ⟨rfl, body, t, ht, hbody, hclose⟩ := ih hg
    have hprefix : ∀ l, Balanced l → Balanced ((c :: (body ++ [c])) ++ l) := by
      intro l hl
      simpa using Balanced.quoted hquote hbody hl
    refine ⟨rfl, ?_⟩
    show Closes closer due (c :: g.inside)
    simpa [ht] using hclose.prepend hprefix
  | case7 closer due position c r _ inner hopen ih =>
    -- an opening bracket, after which its partner is due
    obtain ⟨g, hg, rfl⟩ := Outcome.map_eq_ok_iff.mp h
    obtain ⟨rfl, hclose⟩ := ih hg
    exact ⟨rfl, hclose.open hopen⟩
  | case8 =>
    -- the last closing bracket
    cases h
    exact ⟨rfl, .last .nil⟩
  | case9 position closer r _ _ _ outer due ih =>
    -- a closing bracket that is due, with others behind it
    obtain ⟨g, hg, rfl⟩ := Outcome.map_eq_ok_iff.mp h
    obtain ⟨rfl, hclose⟩ := ih hg
    exact ⟨rfl, .next .nil hclose⟩
  | case10 =>
    -- a closing bracket that is not due
    cases h
  | case11 closer due position c r hquote hopen hclose ih =>
    -- a character without any meaning
    obtain ⟨g, hg, rfl⟩ := Outcome.map_eq_ok_iff.mp h
    obtain ⟨rfl, htail⟩ := ih hg
    rw [Bool.not_eq_true] at hquote hclose
    have hprefix : ∀ l, Balanced l → Balanced ([c] ++ l) :=
      fun l hl => .plain hquote hopen hclose hl
    exact ⟨rfl, Closes.prepend hprefix htail⟩

/-! ## Completeness of the scan -/

/-- The scan finds the group wherever the text stands. -/
def Finds (closer : Char) (due : List Char) (mode : Mode) (s : List Char) (g : Group) : Prop :=
  ∀ position, scan closer due mode position s = .ok g

/-- Put a text in front of what the scan finds inside. -/
def Group.prepend (l : List Char) (g : Group) : Group :=
  ⟨l ++ g.inside, g.rest⟩

theorem Group.prepend_cons (c : Char) (l : List Char) :
    prepend (c :: l) = cons c ∘ prepend l := rfl

theorem Group.prepend_append (l l' : List Char) : prepend (l ++ l') = prepend l ∘ prepend l' := by
  funext g
  simp [prepend]

variable {closer : Char} {due s l : List Char} {position : Nat} {g : Group}

/-- A closing bracket is neither a quote nor an opening bracket. -/
theorem closer?_class {o c : Char} (h : closer? o = some c) :
    isQuote o = false ∧ isQuote c = false ∧ closer? c = none ∧ isCloser c = true := by
  unfold closer? at h
  split at h
  · cases h
    decide
  · cases h
    decide
  · cases h
    decide
  · cases h

/-- A character without any meaning is passed over. -/
theorem scan_plain {c : Char} (hc : IsPlain c) :
    scan closer due .code position (c :: s) =
      (scan closer due .code (position + c.utf8Size) s).map (Group.cons c) := by
  simp [scan, hc.quote, hc.opener, hc.closer]

/-- A quote starts a quoted part. -/
theorem scan_quote {q : Char} (hq : isQuote q = true) :
    scan closer due .code position (q :: s) =
      (scan closer due (.quoted q) (position + q.utf8Size) s).map (Group.cons q) := by
  simp [scan, hq]

/-- An opening bracket makes its partner due. -/
theorem scan_open {o c : Char} (ho : closer? o = some c) :
    scan closer due .code position (o :: s) =
      (scan c (closer :: due) .code (position + o.utf8Size) s).map (Group.cons o) := by
  simp [scan, (closer?_class ho).1, ho]

/-- The closing bracket that is due next gives way to the one behind it. -/
theorem scan_next {o outer : Char} (ho : closer? o = some closer) :
    scan closer (outer :: due) .code position (closer :: s) =
      (scan outer due .code (position + closer.utf8Size) s).map (Group.cons closer) := by
  obtain ⟨-, hquote, hopen, hclose⟩ := closer?_class ho
  simp [scan, hquote, hopen, hclose]

/-- The closing bracket that is due last ends the scan. -/
theorem finds_last {o : Char} (ho : closer? o = some closer) :
    Finds closer [] .code (closer :: s) ⟨[], s⟩ := by
  obtain ⟨-, hquote, hopen, hclose⟩ := closer?_class ho
  intro position
  simp [scan, hquote, hopen, hclose]

/-- In a quoted part the scan passes over what belongs to the part. -/
theorem QuotedText.scan_append {q : Char} {body : List Char} (hbody : QuotedText q body) :
    scan closer due (.quoted q) position (body ++ s) =
      (scan closer due (.quoted q) (position + Text.byteLength body) s).map
        (Group.prepend body) := by
  induction hbody generalizing position with
  | nil => exact (congrFun Except.map_id _).symm
  | @plain c body hslash hquote _ ih =>
    rw [List.cons_append, scan, if_neg hslash, if_neg hquote, ih, Outcome.map_map, Nat.add_assoc]
    rfl
  | @escape c body _ ih =>
    -- the scan goes through two modes for a backslash and the character behind it
    rw [List.cons_append, scan, if_pos rfl, List.cons_append, scan, ih, Outcome.map_map,
      Outcome.map_map, Nat.add_assoc, Nat.add_assoc]
    rfl

/-- The quote of its kind ends a quoted part. -/
theorem scan_unquote {q : Char} (hq : isQuote q = true) :
    scan closer due (.quoted q) position (q :: s) =
      (scan closer due .code (position + q.utf8Size) s).map (Group.cons q) := by
  have hslash : q ≠ '\\' := by
    rintro rfl
    exact absurd hq (by decide)
  rw [scan, if_neg hslash, if_pos rfl]

/-- A balanced text is passed over, whichever brackets are due. -/
theorem Balanced.scan_append (hl : Balanced l) :
    scan closer due .code position (l ++ s) =
      (scan closer due .code (position + Text.byteLength l) s).map (Group.prepend l) := by
  induction hl generalizing closer due position s with
  | nil => exact (congrFun Except.map_id _).symm
  | @plain c l hquote hopen hclose _ ih =>
    rw [List.cons_append, scan_plain ⟨hquote, hopen, hclose⟩, ih, Outcome.map_map, Nat.add_assoc]
    rfl
  | @quoted q body l hq hbody _ ih =>
    rw [List.cons_append, List.append_assoc, List.cons_append, scan_quote hq, hbody.scan_append,
      scan_unquote hq, ih]
    simp only [Outcome.map_map, Group.prepend_cons, Group.prepend_append, Text.byteLength,
      Text.byteLength_append, Nat.add_assoc]
  | @group o c l l' ho _ _ ih ih' =>
    -- while the inside is passed over, the partner of its bracket is due in front of the others
    rw [List.cons_append, List.append_assoc, List.cons_append, scan_open ho, ih, scan_next ho, ih']
    simp only [Outcome.map_map, Group.prepend_cons, Group.prepend_append, Text.byteLength,
      Text.byteLength_append, Nat.add_assoc]

theorem Balanced.finds (hl : Balanced l) (h : Finds closer due .code s g) :
    Finds closer due .code (l ++ s) (g.prepend l) := by
  intro position
  rw [hl.scan_append, h _]
  rfl

/-! ## Groups -/

/-- A group is found exactly where a balanced text stands between a pair of brackets. -/
theorem group_eq_ok_iff {position : Nat} :
    group position s = .ok g ↔
      ∃ o c, closer? o = some c ∧ s = o :: (g.inside ++ c :: g.rest) ∧ Balanced g.inside := by
  constructor
  · intro h
    unfold group at h
    split at h
    · cases h
    · next o r =>
      split at h
      · next c ho =>
        obtain ⟨rfl, hclose⟩ := scan_sound h
        -- only the partner of the opening bracket was due
        cases hclose with
        | last hl => exact ⟨o, c, ho, rfl, hl⟩
      · cases h
  · rintro ⟨o, c, ho, rfl, hl⟩
    have hlast : Finds c [] .code (c :: g.rest) ⟨[], g.rest⟩ := finds_last ho
    have hscan := hl.finds hlast (position + o.utf8Size)
    simpa [group, ho, Group.prepend] using hscan

end ShellQuery.Bracket
