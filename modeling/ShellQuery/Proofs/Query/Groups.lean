import ShellQuery.Proofs.Query.Sliced

/-!
# Groups of brackets

`IsGroup` is the grammar of a group: an opening bracket, items, and the closing bracket of the same
kind.  An item is a group, a quoted part with its quotes, or a character without any meaning.

The scan reads a text once, from left to right.  `Begun` says what it has passed over while closing
brackets are due: for each of them an opening bracket and a balanced text behind it.  `Passed` adds
the quoted part in which the scan may stand, and this is what every character keeps.  Where the scan
stops without a group, `Failure` reads the cause off what was passed over.

The main statement is `matchingClose_recognises_groups`.
-/

namespace ShellQuery.Bracket

open Text

/-! ## The grammar -/

/-- What stands one after the other between the brackets of a group. -/
inductive IsItem : List Char → Prop where
  | group {o c : Char} {items : List (List Char)} (ho : closer? o = some c)
      (hitems : ∀ item ∈ items, IsItem item) : IsItem (o :: (items.flatten ++ [c]))
  | literal {q : Char} {body : List Char} (hq : isQuote q = true) (hbody : QuotedText q body) :
      IsItem (q :: (body ++ [q]))
  | plain {c : Char} (hc : IsPlain c) : IsItem [c]

/-- An opening bracket, items, and the closing bracket of the same kind. -/
inductive IsGroup : List Char → Prop where
  | intro {o c : Char} {items : List (List Char)} (ho : closer? o = some c)
      (hitems : ∀ item ∈ items, IsItem item) : IsGroup (o :: (items.flatten ++ [c]))

theorem balanced_flatten {items : List (List Char)} (h : ∀ item ∈ items, Balanced item) :
    Balanced items.flatten := by
  induction items with
  | nil => exact .nil
  | cons item rest ih =>
    obtain ⟨hitem, hrest⟩ := List.forall_mem_cons.mp h
    exact hitem.append (ih hrest)

theorem IsItem.balanced {s : List Char} (h : IsItem s) : Balanced s := by
  induction h with
  | group ho _ ih => exact (balanced_flatten ih).enclosed ho
  | literal hq hbody => exact .quoted hq hbody .nil
  | plain hc => exact .plain hc.quote hc.opener hc.closer .nil

/-- A balanced text falls into items. -/
theorem Balanced.exists_items {s : List Char} (h : Balanced s) :
    ∃ items : List (List Char), (∀ item ∈ items, IsItem item) ∧ s = items.flatten := by
  induction h with
  | nil => exact ⟨[], nofun, rfl⟩
  | @plain c s hquote hopen hclose _ ih =>
    obtain ⟨items, hitems, rfl⟩ := ih
    have hfirst : IsItem [c] := .plain ⟨hquote, hopen, hclose⟩
    exact ⟨[c] :: items, List.forall_mem_cons.mpr ⟨hfirst, hitems⟩, rfl⟩
  | @quoted q body s hq hbody _ ih =>
    obtain ⟨items, hitems, rfl⟩ := ih
    have hfirst : IsItem (q :: (body ++ [q])) := .literal hq hbody
    exact ⟨_ :: items, List.forall_mem_cons.mpr ⟨hfirst, hitems⟩, by simp⟩
  | @group o c l s ho _ _ ihl ihs =>
    obtain ⟨inner, hinner, rfl⟩ := ihl
    obtain ⟨items, hitems, rfl⟩ := ihs
    have hfirst : IsItem (o :: (inner.flatten ++ [c])) := .group ho hinner
    exact ⟨_ :: items, List.forall_mem_cons.mpr ⟨hfirst, hitems⟩, by simp⟩

/-- A group is a balanced text in a pair of brackets. -/
theorem isGroup_iff {s : List Char} :
    IsGroup s ↔ ∃ o c l, closer? o = some c ∧ Balanced l ∧ s = o :: (l ++ [c]) := by
  constructor
  · intro h
    cases h with
    | @intro o c items ho hitems =>
      exact ⟨o, c, _, ho, balanced_flatten fun item hitem => (hitems item hitem).balanced, rfl⟩
  · rintro ⟨o, c, l, ho, hl, rfl⟩
    obtain ⟨items, hitems, rfl⟩ := hl.exists_items
    exact .intro ho hitems

/-- What stands in a group is balanced. -/
theorem isGroup_enclosed_iff {o c : Char} {l : List Char} (ho : closer? o = some c) :
    IsGroup (o :: (l ++ [c])) ↔ Balanced l := by
  rw [isGroup_iff]
  constructor
  · rintro ⟨o', c', l', ho', hl', heq⟩
    obtain ⟨rfl, hlast⟩ := List.cons.inj heq
    rwa [List.append_inj_left' hlast rfl]
  · intro hl
    exact ⟨o, c, l, ho, hl, rfl⟩

/-! ## Closing brackets and quotes -/

/-- A closing bracket belongs to an opening one. -/
theorem exists_closer?_of_isCloser {c : Char} (h : isCloser c = true) :
    ∃ o, closer? o = some c := by
  simp only [isCloser, Bool.or_eq_true, decide_eq_true_eq] at h
  obtain (rfl | rfl) | rfl := h
  · exact ⟨'(', rfl⟩
  · exact ⟨'[', rfl⟩
  · exact ⟨'{', rfl⟩

theorem QuotedText.append {q : Char} {s t : List Char} (hs : QuotedText q s)
    (ht : QuotedText q t) : QuotedText q (s ++ t) := by
  induction hs with
  | nil => exact ht
  | plain hslash hquote _ ih => exact .plain hslash hquote ih
  | escape _ ih => exact .escape ih

/-- A quoted part whose quote does not come: a text that may stand in it, with or without a
    backslash that waits for its character. -/
inductive OpenQuoted (q : Char) : List Char → Prop where
  | quoted {s : List Char} (hs : QuotedText q s) : OpenQuoted q s
  | escaped {s : List Char} (hs : QuotedText q s) : OpenQuoted q (s ++ ['\\'])

/-! ## Begun groups -/

/-- A group that has begun: the closing brackets still due, the innermost first, and the text from
    its opening bracket on. -/
inductive Begun : List Char → List Char → Prop where
  | start {o c : Char} {l : List Char} (ho : closer? o = some c) (hl : Balanced l) :
      Begun [c] (o :: l)
  | inner {due s l : List Char} {o c : Char} (hs : Begun due s) (ho : closer? o = some c)
      (hl : Balanced l) : Begun (c :: due) (s ++ o :: l)

variable {due s : List Char} {q c : Char}

/-- A balanced text leaves due what was due before it. -/
theorem Begun.append (h : Begun due s) {l : List Char} (hl : Balanced l) : Begun due (s ++ l) := by
  cases h with
  | start ho hm => exact .start ho (hm.append hl)
  | inner hs ho hm =>
    rw [List.append_assoc, List.cons_append]
    exact .inner hs ho (hm.append hl)

/-- The closing bracket that is due first makes a group of what stands behind its partner. -/
theorem Begun.close {outer : Char} (h : Begun (c :: outer :: due) s) :
    Begun (outer :: due) (s ++ [c]) := by
  cases h with
  | inner hs ho hl =>
    rw [List.append_assoc, List.cons_append]
    exact hs.append (hl.enclosed ho)

/-- The scan of a group goes on behind any beginning of it, with the same brackets due. -/
theorem Begun.group_append (h : Begun due s) :
    ∃ closer rest l, due = closer :: rest ∧ ∀ position t,
      group position (s ++ t) =
        (scan closer rest .code (position + byteLength s) t).map (Group.prepend l) := by
  induction h with
  | @start o c l ho hl =>
    refine ⟨c, [], l, rfl, fun position t => ?_⟩
    simp only [List.cons_append, group, ho, hl.scan_append, byteLength, Nat.add_assoc]
  | @inner due s l o c _ ho hl ih =>
    obtain ⟨closer, rest, l', rfl, hgroup⟩ := ih
    refine ⟨c, closer :: rest, l' ++ o :: l, rfl, fun position t => ?_⟩
    rw [List.append_assoc, hgroup, List.cons_append, scan_open ho, hl.scan_append]
    simp only [Outcome.map_map, Group.prepend_append, Group.prepend_cons, byteLength_append,
      byteLength_cons, Nat.add_assoc]

/-! ## Failures -/

/-- Why no group stands at the front of a text, which has so many bytes before it.  Either it does
    not start with an opening bracket, or a group begins and the wrong closing bracket comes, or the
    text ends, in a quoted part or outside of them. -/
inductive Failure (position : Nat) : List Char → Malformed → Prop where
  | noOpener {s : List Char} (h : ∀ o ∈ s.head?, closer? o = none) :
      Failure position s (.noOpener position s.head?)
  | wrongCloser {expected found : Char} {due begun rest : List Char}
      (hbegun : Begun (expected :: due) begun) (hfound : isCloser found = true)
      (hne : found ≠ expected) :
      Failure position (begun ++ found :: rest)
        (.wrongCloser expected found (position + byteLength begun))
  | openString {due begun body : List Char} {q : Char} (hbegun : Begun due begun)
      (hq : isQuote q = true) (hbody : OpenQuoted q body) :
      Failure position (begun ++ q :: body) .openString
  | unbalanced {due begun : List Char} (hbegun : Begun due begun) :
      Failure position begun (.unbalanced due.length)

/-! ## What the scan passes over -/

/-- What the scan has passed over in each mode. -/
def Passed (due : List Char) : Mode → List Char → Prop
  | .code, s => Begun due s
  | .quoted q, s => ∃ begun body,
      s = begun ++ q :: body ∧ Begun due begun ∧ isQuote q = true ∧ QuotedText q body
  | .escaped q, s => ∃ begun body,
      s = begun ++ q :: (body ++ ['\\']) ∧ Begun due begun ∧ isQuote q = true ∧ QuotedText q body

/-- Behind a backslash any character belongs to the quoted part. -/
theorem Passed.escaped (h : Passed due (.escaped q) s) : Passed due (.quoted q) (s ++ [c]) := by
  obtain ⟨begun, body, rfl, hbegun, hq, hbody⟩ := h
  have hmore : QuotedText q (body ++ ['\\', c]) := hbody.append (.escape .nil)
  exact ⟨begun, _, by simp, hbegun, hq, hmore⟩

/-- A character in a quoted part is a backslash, the quote that ends the part, or one more of its
    text. -/
theorem Passed.quoted (h : Passed due (.quoted q) s) :
    Passed due (if c = '\\' then .escaped q else if c = q then .code else .quoted q)
      (s ++ [c]) := by
  obtain ⟨begun, body, rfl, hbegun, hq, hbody⟩ := h
  split
  · next hslash => exact ⟨begun, body, by simp [hslash], hbegun, hq, hbody⟩
  · next hslash =>
    split
    · next hquote =>
      have hliteral : Balanced (q :: (body ++ [q])) := .quoted hq hbody .nil
      rw [hquote, List.append_assoc, List.cons_append]
      exact hbegun.append hliteral
    · next hquote =>
      have hmore : QuotedText q (body ++ [c]) := hbody.append (.plain hslash hquote .nil)
      exact ⟨begun, _, by simp, hbegun, hq, hmore⟩

/-- A scan that fails gives the cause.  The induction follows the scan, and `Passed` is what it
    keeps about the text in front. -/
theorem failure_of_scan {closer : Char} {mode : Mode} {position start : Nat} {t : List Char}
    {m : Malformed} (h : scan closer due mode position t = .error m)
    (hpassed : Passed (closer :: due) mode s) (hposition : position = start + byteLength s) :
    Failure start (s ++ t) m := by
  -- the position moves on with the text in front
  have hnext : ∀ {position s}, position = start + byteLength s →
      ∀ c : Char, position + c.utf8Size = start + byteLength (s ++ [c]) := by
    rintro _ s rfl c
    rw [byteLength_append, byteLength_cons, byteLength_nil, Nat.add_zero, Nat.add_assoc]
  fun_induction scan closer due mode position t generalizing s with
  | case1 closer due position =>
    -- the text ends between quoted parts
    cases h
    rw [List.append_nil]
    exact .unbalanced hpassed
  | case2 closer due q position =>
    -- the text ends in a quoted part
    cases h
    obtain ⟨begun, body, rfl, hbegun, hq, hbody⟩ := hpassed
    rw [List.append_nil]
    exact .openString hbegun hq (.quoted hbody)
  | case3 closer due q position =>
    -- the text ends behind a backslash
    cases h
    obtain ⟨begun, body, rfl, hbegun, hq, hbody⟩ := hpassed
    rw [List.append_nil]
    exact .openString hbegun hq (.escaped hbody)
  | case4 closer due q position c r ih =>
    rw [List.append_cons]
    exact ih (Outcome.map_eq_error_iff.mp h) hpassed.escaped (hnext hposition c)
  | case5 closer due q position c r mode =>
    rename_i ih
    rw [List.append_cons]
    exact ih (Outcome.map_eq_error_iff.mp h) hpassed.quoted (hnext hposition c)
  | case6 closer due position c r hquote ih =>
    rw [List.append_cons]
    exact ih (Outcome.map_eq_error_iff.mp h) ⟨s, [], rfl, hpassed, hquote, .nil⟩
      (hnext hposition c)
  | case7 closer due position c r _ inner hopen ih =>
    rw [List.append_cons]
    exact ih (Outcome.map_eq_error_iff.mp h) (Begun.inner hpassed hopen .nil) (hnext hposition c)
  | case8 =>
    -- the last closing bracket, where the scan succeeds
    cases h
  | case9 position closer r _ _ _ outer due ih =>
    rw [List.append_cons]
    exact ih (Outcome.map_eq_error_iff.mp h) (Begun.close hpassed) (hnext hposition closer)
  | case10 closer due position c r _ _ hclose hne =>
    -- a closing bracket that is not due
    cases h
    rw [hposition]
    exact .wrongCloser hpassed hclose hne
  | case11 closer due position c r hquote hopen hclose ih =>
    rw [Bool.not_eq_true] at hquote hclose
    have hc : Balanced [c] := .plain hquote hopen hclose .nil
    rw [List.append_cons]
    exact ih (Outcome.map_eq_error_iff.mp h) (Begun.append hpassed hc) (hnext hposition c)

/-- The scan of a quoted part that does not end runs to the end of the text. -/
theorem OpenQuoted.scan_eq {q closer : Char} {due body : List Char} (h : OpenQuoted q body)
    (position : Nat) : scan closer due (.quoted q) position body = .error .openString := by
  cases h with
  | quoted hs =>
    have happend : scan closer due (.quoted q) position (body ++ []) =
        (scan closer due (.quoted q) (position + byteLength body) []).map (Group.prepend body) :=
      hs.scan_append
    rw [List.append_nil] at happend
    rw [happend]
    rfl
  | escaped hs =>
    rw [hs.scan_append]
    rfl

/-- Each failure is the one that is reported. -/
theorem Failure.group_eq {position : Nat} {m : Malformed} (h : Failure position s m) :
    group position s = .error m := by
  cases h with
  | noOpener h =>
    cases s with
    | nil => rfl
    | cons o r => rw [group, h o rfl]; rfl
  | @wrongCloser expected found due begun rest hbegun hfound hne =>
    obtain ⟨o, ho⟩ := exists_closer?_of_isCloser hfound
    obtain ⟨-, hquote, hopen, -⟩ := closer?_class ho
    obtain ⟨closer, due', l, heq, hgroup⟩ := hbegun.group_append
    obtain ⟨rfl, rfl⟩ := List.cons.inj heq
    rw [hgroup]
    simp [scan, hquote, hopen, hfound, hne, Except.map]
  | openString hbegun hq hbody =>
    obtain ⟨closer, rest, l, rfl, hgroup⟩ := hbegun.group_append
    rw [hgroup, scan_quote hq, hbody.scan_eq]
    rfl
  | unbalanced hbegun =>
    obtain ⟨closer, rest, l, rfl, hgroup⟩ := hbegun.group_append
    have hend := hgroup position []
    rw [List.append_nil] at hend
    rw [hend]
    rfl

/-- A text starts with a group, or the cause why it does not is reported. -/
theorem group_eq_error_iff {position : Nat} {m : Malformed} :
    group position s = .error m ↔ Failure position s m := by
  refine ⟨fun h => ?_, Failure.group_eq⟩
  unfold group at h
  split at h
  · cases h
    exact @Failure.noOpener position [] nofun
  · next o r =>
    split at h
    · next closer ho =>
      have hstart : Begun [closer] [o] := .start ho .nil
      exact failure_of_scan h hstart rfl
    · next ho =>
      cases h
      refine @Failure.noOpener position (o :: r) ?_
      rintro _ ⟨⟩
      exact ho

/-! ## Positions -/

/-- A group stands in the text from one byte position to another, both included. -/
def GroupAt (text : List Char) (opening close : Nat) : Prop :=
  ∃ g, slice? text opening (close + 1) = some g ∧ IsGroup g

/-- Why no group starts at a byte position of a text. -/
inductive FailsAt (text : List Char) (opening : Nat) : Malformed → Prop where
  | outOfRange (h : ¬IsBoundary text opening) : FailsAt text opening (.outOfRange opening)
  | behind {front behind : List Char} {m : Malformed} (htext : text = front ++ behind)
      (hopening : byteLength front = opening) (h : Failure opening behind m) :
      FailsAt text opening m

variable {text : List Char} {opening close : Nat}

/-- Brackets take one byte each, so the inside of a group is two bytes shorter than the group. -/
theorem byteLength_enclosed {o : Char} (ho : closer? o = some c) (l : List Char) :
    byteLength (o :: (l ++ [c])) = byteLength l + 2 := by
  obtain ⟨hopen, hclose⟩ := Sliced.utf8Size_of_closer? ho
  rw [byteLength_cons, byteLength_append, byteLength_cons, byteLength_nil, hopen, hclose]
  omega

theorem matchingClose_eq_ok_iff :
    matchingClose text opening = .ok close ↔ GroupAt text opening close := by
  constructor
  · intro h
    unfold matchingClose at h
    split at h
    · cases h
    · next behind hbehind =>
      obtain ⟨front, rfl, rfl⟩ := dropBytes_eq_some_iff.mp hbehind
      obtain ⟨g, hgroup, rfl⟩ := Outcome.map_eq_ok_iff.mp h
      obtain ⟨o, c, ho, rfl, hl⟩ := group_eq_ok_iff.mp hgroup
      have hslice : slice? (front ++ o :: (g.inside ++ c :: g.rest)) (byteLength front)
          (byteLength front + 1 + byteLength g.inside + 1) = some (o :: (g.inside ++ [c])) := by
        refine slice?_eq_some_iff.mpr ⟨front, g.rest, by simp, rfl, ?_⟩
        rw [byteLength_enclosed ho]
        omega
      exact ⟨_, hslice, isGroup_iff.mpr ⟨o, c, _, ho, hl, rfl⟩⟩
  · rintro ⟨g, hslice, hgroup⟩
    obtain ⟨front, back, rfl, rfl, hclose⟩ := slice?_eq_some_iff.mp hslice
    obtain ⟨o, c, l, ho, hl, rfl⟩ := isGroup_iff.mp hgroup
    have hfound : group (byteLength front) (o :: (l ++ [c]) ++ back) = .ok ⟨l, back⟩ :=
      group_eq_ok_iff.mpr ⟨o, c, ho, by simp, hl⟩
    rw [byteLength_enclosed ho] at hclose
    have hlength : byteLength front + 1 + byteLength l = close := by omega
    rw [Sliced.matchingClose_append, hfound, ← hlength]
    rfl

theorem matchingClose_eq_error_iff {m : Malformed} :
    matchingClose text opening = .error m ↔ FailsAt text opening m := by
  constructor
  · intro h
    unfold matchingClose at h
    split at h
    · next hnone =>
      cases h
      refine .outOfRange ?_
      rintro ⟨front, back, rfl, rfl⟩
      rw [dropBytes_byteLength] at hnone
      cases hnone
    · next behind hbehind =>
      obtain ⟨front, rfl, rfl⟩ := dropBytes_eq_some_iff.mp hbehind
      exact .behind rfl rfl (group_eq_error_iff.mp (Outcome.map_eq_error_iff.mp h))
  · intro h
    cases h with
    | outOfRange h => exact Sliced.matchingClose_of_not_isBoundary h
    | @behind front behind _ htext hopening h =>
      subst htext hopening
      rw [Sliced.matchingClose_append, h.group_eq]
      rfl

/-! ## Main result -/

/-- A closing bracket is found exactly where a group ends.  There is one such place at most, and it
    depends on the group alone; where there is none, the cause is reported. -/
theorem matchingClose_recognises_groups (text : List Char) (opening : Nat) :
    (∀ close, matchingClose text opening = .ok close ↔ GroupAt text opening close) ∧
    (∀ close close', GroupAt text opening close → GroupAt text opening close' → close = close') ∧
    (∀ text' opening' length,
      slice? text' opening' (opening' + length + 1) =
        slice? text opening (opening + length + 1) →
      (matchingClose text' opening' = .ok (opening' + length) ↔
        matchingClose text opening = .ok (opening + length))) ∧
    (∀ m, matchingClose text opening = .error m ↔ FailsAt text opening m) ∧
    ((∀ close, ¬GroupAt text opening close) → ∃ m, matchingClose text opening = .error m) := by
  refine ⟨fun _ => matchingClose_eq_ok_iff, ?_, ?_, fun _ => matchingClose_eq_error_iff, ?_⟩
  · intro close close' h h'
    rw [← matchingClose_eq_ok_iff] at h h'
    exact Except.ok.inj (h.symm.trans h')
  · intro text' opening' length hslice
    rw [matchingClose_eq_ok_iff, matchingClose_eq_ok_iff, GroupAt, GroupAt, hslice]
  · intro hnone
    cases h : matchingClose text opening with
    | ok close => exact absurd (matchingClose_eq_ok_iff.mp h) (hnone close)
    | error m => exact ⟨m, rfl⟩

/-- A bracket in a quoted part, a character of three bytes, and a group that is closed wrongly. -/
theorem matchingClose_recognises_groups_wide :
    (∀ close, GroupAt "é(']' [日])x".toList 2 close → close = 12) ∧
    (slice? "(']' [日])".toList 0 11 = slice? "é(']' [日])x".toList 2 13 ∧
      matchingClose "(']' [日])".toList 0 = .ok 10) ∧
    (∀ close, ¬GroupAt "('x' ]".toList 0 close) ∧
    FailsAt "('x' ]".toList 0 (.wrongCloser ')' ']' 5) := by
  obtain ⟨hfinds, hunique, hslice, -, -⟩ :=
    matchingClose_recognises_groups "é(']' [日])x".toList 2
  obtain ⟨hfinds', -, -, hfails, -⟩ := matchingClose_recognises_groups "('x' ]".toList 0
  have hclose : matchingClose "é(']' [日])x".toList 2 = .ok 12 := by rfl
  have hwrong : matchingClose "('x' ]".toList 0 = .error (.wrongCloser ')' ']' 5) := by rfl
  have hsame : slice? "(']' [日])".toList 0 11 = slice? "é(']' [日])x".toList 2 13 := by decide
  refine ⟨?_, ⟨hsame, (hslice _ 0 10 hsame).mpr hclose⟩, ?_, (hfails _).mp hwrong⟩
  · intro close h
    exact hunique close 12 h ((hfinds 12).mp hclose)
  · intro close h
    rw [← hfinds' close, hwrong] at h
    cases h

end ShellQuery.Bracket
