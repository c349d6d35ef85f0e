import Mathlib.Algebra.BigOperators.Group.List.Basic
import ShellQuery.Proofs.Query.Groups
import ShellQuery.Query.Chain

/-!
# The grammar of chained calls

A tail of chained calls is a sequence of segments with blank characters behind the last of them.  A
segment is a dot, a name and a group of parentheses, with blank characters in between.  `Segment`
and `ChainText` are such texts by their parts.

The loop that splits a tail reads a segment in each round, whatever stands behind it
(`Segment.splitWith_append`).  So the text in the parentheses neither takes a part of the next
segment nor loses one of its own, and what is appended to a chain is split on its own.

The main statement is `split_recognises_chains`.
-/

namespace ShellQuery.Chain

open Text

/-! ## Names -/

/-- A name of a chained call. -/
structure IsName (name : List Char) : Prop where
  nonempty : name ≠ []
  chars : ∀ c ∈ name, isNameChar c = true

theorem isName_iff {name : List Char} :
    IsName name ↔ (name.isEmpty || !name.all isNameChar) = false := by
  rw [Bool.or_eq_false_iff, Bool.not_eq_false', List.all_eq_true, List.isEmpty_eq_false_iff]
  exact ⟨fun h => ⟨h.nonempty, h.chars⟩, fun h => ⟨h.1, h.2⟩⟩

theorem isBlank_of_isNameChar {c : Char} (h : isNameChar c = true) : isBlank c = false := by
  simp only [isNameChar, Bool.or_eq_true, decide_eq_true_eq] at h
  obtain (hletter | rfl) | rfl := h
  · exact isBlank_of_isAlphanumeric hletter
  · decide
  · decide

theorem IsName.trim_eq {name : List Char} (h : IsName name) : trim name = name :=
  trim_eq_of_forall fun c hc => isBlank_of_isNameChar (h.chars c hc)

theorem IsName.parenthesis_not_mem {name : List Char} (h : IsName name) : '(' ∉ name := by
  intro hmem
  exact absurd (h.chars _ hmem) (by decide)

/-! ## Segments and chains -/

/-- The parts of a chained call as it is written: a dot with a blank text `before` it, a name between
    the blank texts `left` and `right`, and what is `inside` the parentheses. -/
structure Segment where
  before : List Char
  left : List Char
  name : List Char
  right : List Char
  inside : List Char
  blank_before : IsBlankText before
  blank_left : IsBlankText left
  isName : IsName name
  blank_right : IsBlankText right
  isGroup : Bracket.IsGroup ('(' :: (inside ++ [')']))

namespace Segment

/-- What stands between the dot and the parenthesis. -/
def head (seg : Segment) : List Char :=
  seg.left ++ (seg.name ++ seg.right)

/-- The text of a segment. -/
def text (seg : Segment) : List Char :=
  seg.before ++ '.' :: (seg.head ++ '(' :: (seg.inside ++ [')']))

/-- The call that a segment writes. -/
def call (seg : Segment) : ChainedCall :=
  ⟨String.ofList seg.name, String.ofList (trim seg.inside)⟩

end Segment

/-- The segments of a chain and the blank characters behind the last of them. -/
structure ChainText where
  segments : List Segment
  after : List Char
  blank_after : IsBlankText after

namespace ChainText

/-- The text of a chain. -/
def text (chain : ChainText) : List Char :=
  chain.segments.flatMap Segment.text ++ chain.after

/-- The calls of a chain in the order of the text. -/
def calls (chain : ChainText) : List ChainedCall :=
  chain.segments.map Segment.call

end ChainText

/-! ## Reading a call -/

namespace Segment

variable (seg : Segment)

theorem trim_head : trim seg.head = seg.name := by
  rw [head, trim_append_append seg.blank_left seg.blank_right, seg.isName.trim_eq]

theorem parenthesis_not_mem_head : '(' ∉ seg.head := by
  simp only [head, List.mem_append, not_or]
  exact ⟨seg.blank_left.not_mem (by decide), seg.isName.parenthesis_not_mem,
    seg.blank_right.not_mem (by decide)⟩

/-- The call behind the dot is read, and the reader stops behind its parenthesis. -/
theorem readCall_append (position : Nat) (s : List Char) :
    readCall position (seg.head ++ '(' :: (seg.inside ++ ')' :: s)) = .ok ⟨seg.call, s⟩ := by
  have hsplit : splitFirst? '(' (seg.head ++ '(' :: (seg.inside ++ ')' :: s)) =
      some (seg.head, seg.inside ++ ')' :: s) :=
    splitFirst?_eq_some_iff.mpr ⟨seg.parenthesis_not_mem_head, rfl⟩
  have hname : ((trim seg.head).isEmpty || !(trim seg.head).all isNameChar) = false := by
    rw [seg.trim_head]
    exact isName_iff.mp seg.isName
  have hgroup : Bracket.group (position + byteLength seg.head)
      ('(' :: (seg.inside ++ ')' :: s)) = .ok ⟨seg.inside, s⟩ :=
    Bracket.group_eq_ok_iff.mpr
      ⟨'(', ')', rfl, rfl, (Bracket.isGroup_enclosed_iff rfl).mp seg.isGroup⟩
  simp only [readCall, hsplit, hname, Bool.false_eq_true, if_false, hgroup, bind, Except.bind]
  rw [seg.trim_head, call]

/-- The segment in front of a tail is the first call that is read. -/
theorem splitWith_append (total fuel : Nat) (s : List Char) :
    splitWith total (fuel + 1) (seg.text ++ s) =
      (splitWith total fuel s).map (seg.call :: ·) := by
  have hdot : dropBlank (seg.text ++ s) =
      '.' :: (seg.head ++ '(' :: (seg.inside ++ ')' :: s)) := by
    have hblank : isBlank '.' = false := by decide
    rw [text, List.append_assoc, dropBlank_append seg.blank_before]
    simp [dropBlank, hblank]
  rw [splitWith, hdot]
  simp only [if_pos, readCall_append, bind, Except.bind]
  cases splitWith total fuel s <;> rfl

end Segment

/-- A call that is read makes up a segment with the dot and what is blank in front of it. -/
theorem exists_segment_of_readCall {before r : List Char} {position : Nat} {step : Step}
    (hbefore : IsBlankText before) (h : readCall position r = .ok step) :
    ∃ seg : Segment, before ++ '.' :: r = seg.text ++ step.rest ∧ step.call = seg.call := by
  unfold readCall at h
  split at h
  · cases h
  · next head after hsplit =>
    obtain ⟨-, rfl⟩ := splitFirst?_eq_some_iff.mp hsplit
    simp only at h
    split at h
    · cases h
    · next hname =>
      obtain ⟨g, hgroup, h⟩ := Outcome.bind_eq_ok_iff.mp h
      cases h
      -- the bracket that opens the group is the parenthesis at which the head ends
      obtain ⟨o, c, hopen, htext, hinside⟩ := Bracket.group_eq_ok_iff.mp hgroup
      obtain ⟨rfl, rfl⟩ := List.cons.inj htext
      cases hopen
      obtain ⟨left, right, hleft, hright, hhead⟩ := exists_blank_append_trim head
      let seg : Segment :=
        { before, left, name := trim head, right, inside := g.inside
          blank_before := hbefore
          blank_left := hleft
          isName := isName_iff.mpr (Bool.not_eq_true _ ▸ hname)
          blank_right := hright
          isGroup := (Bracket.isGroup_enclosed_iff rfl).mpr hinside }
      have hseg : seg.head = head := hhead.symm
      exact ⟨seg, by simp [Segment.text, hseg, seg], rfl⟩

/-! ## Splitting a chain -/

theorem Segment.length_text_pos (seg : Segment) : 0 < seg.text.length := by
  simp [text]

namespace ChainText

variable (chain : ChainText)

/-- A segment has one character at least. -/
theorem length_segments_le : chain.segments.length ≤ chain.text.length := by
  have hpos : ∀ n ∈ chain.segments.map fun seg => seg.text.length, 1 ≤ n :=
    List.forall_mem_map.mpr fun seg _ => seg.length_text_pos
  have hsum := List.length_le_sum_of_one_le _ hpos
  rw [List.length_map] at hsum
  rw [text, List.length_append, List.length_flatMap]
  exact Nat.le_add_right_of_le hsum

/-- The calls of a chain come in front of those of what is appended to it.  The induction is on the
    segments, each of which takes a round. -/
theorem splitWith_append (total fuel : Nat) (s : List Char) :
    splitWith total (chain.segments.length + (fuel + 1)) (chain.text ++ s) =
      (splitWith total (fuel + 1) s).map (chain.calls ++ ·) := by
  obtain ⟨segments, after, hafter⟩ := chain
  simp only [text, calls]
  induction segments with
  | nil =>
    -- the round that follows passes over the blank characters
    have hblank : splitWith total (fuel + 1) (after ++ s) = splitWith total (fuel + 1) s := by
      rw [splitWith, splitWith, dropBlank_append hafter]
    rw [List.length_nil, Nat.zero_add, List.flatMap_nil, List.nil_append, hblank]
    exact (congrFun Except.map_id _).symm
  | cons seg rest ih =>
    rw [List.length_cons, Nat.add_right_comm, List.flatMap_cons, List.append_assoc,
      List.append_assoc, seg.splitWith_append, ← List.append_assoc, ih, Outcome.map_map]
    rfl

end ChainText

/-- A tail that is split is a chain of the calls that are given.  The induction is on the fuel, of
    which a round takes less than it takes of the text. -/
theorem exists_chain_of_splitWith {total fuel : Nat} {s : List Char} {calls : List ChainedCall}
    (hfuel : s.length < fuel) (h : splitWith total fuel s = .ok calls) :
    ∃ chain : ChainText, chain.text = s ∧ chain.calls = calls := by
  induction fuel generalizing s calls with
  | zero => exact absurd hfuel (Nat.not_lt_zero _)
  | succ fuel ih =>
    obtain ⟨before, hbefore, hs⟩ := exists_blank_append_dropBlank s
    rw [splitWith] at h
    split at h
    · next hend =>
      cases h
      rw [hend, List.append_nil] at hs
      exact ⟨⟨[], before, hbefore⟩, hs.symm, rfl⟩
    · next c r hrest =>
      rw [hrest] at hs
      split at h
      · next hdot =>
        subst hdot
        obtain ⟨step, hcall, h⟩ := Outcome.bind_eq_ok_iff.mp h
        obtain ⟨more, hmore, h⟩ := Outcome.bind_eq_ok_iff.mp h
        cases h
        obtain ⟨seg, htext, hseg⟩ := exists_segment_of_readCall hbefore hcall
        rw [htext] at hs
        -- a call takes at least one character, so that the fuel lasts for those behind it
        have hshort : step.rest.length < fuel := by
          have hpos := seg.length_text_pos
          rw [hs, List.length_append] at hfuel
          omega
        obtain ⟨chain, hbehind, rfl⟩ := ih hshort hmore
        refine ⟨{ chain with segments := seg :: chain.segments }, ?_, ?_⟩
        · rw [hs, ← hbehind, ChainText.text, List.flatMap_cons, List.append_assoc]
          rfl
        · rw [hseg]
          rfl
      · cases h

/-- With enough fuel the calls of a chain are found, and nothing else is split. -/
theorem splitWith_eq_ok_iff {total fuel : Nat} {s : List Char} {calls : List ChainedCall}
    (hfuel : s.length < fuel) :
    splitWith total fuel s = .ok calls ↔
      ∃ chain : ChainText, chain.text = s ∧ chain.calls = calls := by
  refine ⟨exists_chain_of_splitWith hfuel, ?_⟩
  rintro ⟨chain, rfl, rfl⟩
  obtain ⟨left, rfl⟩ : ∃ left, fuel = chain.segments.length + (left + 1) :=
    ⟨fuel - chain.segments.length - 1, by have := chain.length_segments_le; omega⟩
  have hsplit := chain.splitWith_append total left []
  rw [List.append_nil] at hsplit
  rw [hsplit, splitWith]
  simp [dropBlank, Except.map]

theorem split_eq_ok_iff {tail : List Char} {calls : List ChainedCall} :
    split tail = .ok calls ↔ ∃ chain : ChainText, chain.text = tail ∧ chain.calls = calls :=
  splitWith_eq_ok_iff (Nat.lt_succ_self _)

/-- What is appended to a chain is split as if it stood alone. -/
theorem ChainText.split_append_eq_ok_iff (chain : ChainText) {more : List Char}
    {all : List ChainedCall} :
    split (chain.text ++ more) = .ok all ↔
      ∃ others, split more = .ok others ∧ all = chain.calls ++ others := by
  have hfuel : (chain.text ++ more).length + 1 =
      chain.segments.length + (chain.text.length - chain.segments.length + more.length + 1) := by
    have hle := chain.length_segments_le
    rw [List.length_append]
    omega
  have hmore : more.length < chain.text.length - chain.segments.length + more.length + 1 := by
    omega
  rw [split, hfuel, chain.splitWith_append, Outcome.map_eq_ok_iff]
  simp only [splitWith_eq_ok_iff hmore, split_eq_ok_iff, eq_comm (a := all)]

/-! ## Main result -/

/-- The tails that are split are the chains, and the calls are those of the segments in their order.
    What is appended to a chain is split if and only if it is a chain by itself, and its calls
    follow. -/
theorem split_recognises_chains (tail : List Char) (calls : List ChainedCall) :
    (split tail = .ok calls ↔ ∃ chain : ChainText, chain.text = tail ∧ chain.calls = calls) ∧
    (split tail = .ok calls → ∀ more all, split (tail ++ more) = .ok all ↔
      ∃ others, split more = .ok others ∧ all = calls ++ others) := by
  refine ⟨split_eq_ok_iff, fun h more all => ?_⟩
  obtain ⟨chain, rfl, rfl⟩ := split_eq_ok_iff.mp h
  exact chain.split_append_eq_ok_iff

/-- Dots, parentheses and quotes in an argument, and blank characters of three bytes. -/
theorem split_recognises_chains_in_strings :
    let tail := "\u3000.hint(\").skip(1)\", \x7b\".\": ')'\x7d) . größe ( [é.(.)] )\u3000".toList
    let calls : List ChainedCall :=
      [⟨"hint", "\").skip(1)\", \x7b\".\": ')'\x7d"⟩, ⟨"größe", "[é.(.)]"⟩]
    (∃ chain : ChainText, chain.text = tail ∧ chain.calls = calls) ∧
    split (tail ++ ".skip(2)".toList) = .ok (calls ++ [⟨"skip", "2"⟩]) ∧
    ∀ all, split (tail ++ "skip(2)".toList) ≠ .ok all := by
  intro tail calls
  have hsplit : split tail = .ok calls := by rfl
  have hskip : split ".skip(2)".toList = .ok [⟨"skip", "2"⟩] := by rfl
  have hbare : split "skip(2)".toList = .error (.noDot "skip(2)") := by rfl
  obtain ⟨hiff, happend⟩ := split_recognises_chains tail calls
  refine ⟨hiff.mp hsplit, (happend hsplit _ _).mpr ⟨_, hskip, rfl⟩, fun all hall => ?_⟩
  obtain ⟨others, hothers, -⟩ := (happend hsplit _ _).mp hall
  rw [hbare] at hothers
  cases hothers

end ShellQuery.Chain
