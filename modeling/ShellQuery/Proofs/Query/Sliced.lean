import ShellQuery.Proofs.Query.Balance
import ShellQuery.Proofs.Query.Call
import ShellQuery.Proofs.Query.ScriptText
import ShellQuery.Proofs.Text.LetterCase
import ShellQuery.Proofs.Text.Names
import ShellQuery.Query.Sliced

/-!
# All slices exist

`Sliced` reads queries, tails and scripts with byte positions, and a slice at a wrong position or a
loop without an end would leave a reader without an outcome.  That never happens: for every text
the readers have the outcome of those that keep no positions (`parse_eq`, `split_eq`,
`replaceIds_eq`), and `all_slices_exist` states it for all of them.

A position in a loop is the length of the text passed over, which is a boundary.  So each lemma
about a loop takes the whole text in the form `front ++ s`, where the loop stands behind `front`.
-/

namespace ShellQuery

namespace Text

/-! ## Searching -/

/-- The first mark is found at the position at which the text is split. -/
theorem findByte?_of_splitFirst? {mark : Char} {s before after : List Char}
    (h : splitFirst? mark s = some (before, after)) :
    findByte? (· = mark) s = some (byteLength before) := by
  obtain ⟨hmark, rfl⟩ := splitFirst?_eq_some_iff.mp h
  refine findByte?_append_cons (fun d hd => ?_) (by simp) after
  simpa using fun heq : d = mark => hmark (heq ▸ hd)

theorem findByte?_of_splitFirst?_eq_none {mark : Char} {s : List Char}
    (h : splitFirst? mark s = none) : findByte? (· = mark) s = none := by
  rw [splitFirst?_eq_none_iff] at h
  refine findByte?_of_forall fun d hd => ?_
  simpa using fun heq : d = mark => h (heq ▸ hd)

/-- A run of characters of a class ends at the first that is none of them. -/
theorem slices_of_takeWhile (p : Char → Bool) (s : List Char) :
    (findByte? (fun c => !p c) s).getD (byteLength s) = byteLength (s.takeWhile p) ∧
      slice? s 0 (byteLength (s.takeWhile p)) = some (s.takeWhile p) ∧
      sliceFrom? s (byteLength (s.takeWhile p)) = some (s.dropWhile p) := by
  have hfront : ∀ c ∈ s.takeWhile p, (!p c) = false := by
    intro c hc
    simp [List.mem_takeWhile_imp hc]
  have hsplit := s.takeWhile_append_dropWhile (p := p)
  have hslice := slice?_zero_append (s.takeWhile p) (s.dropWhile p)
  have hrest := sliceFrom?_append (s.takeWhile p) (s.dropWhile p)
  rw [hsplit] at hslice hrest
  refine ⟨?_, hslice, hrest⟩
  cases hbehind : s.dropWhile p with
  | nil =>
    -- the whole text belongs to the class, and nothing is found
    rw [hbehind, List.append_nil] at hsplit
    rw [hsplit] at hfront ⊢
    rw [findByte?_of_forall hfront, Option.getD_none]
  | cons c r =>
    -- `c` is the first that does not
    have hc : (!p c) = true := by
      have hhead := List.head?_dropWhile_not p s
      simpa [hbehind] using hhead
    have hfind := findByte?_append_cons hfront hc r
    rw [← hbehind, hsplit] at hfind
    rw [hfind, Option.getD_some]

theorem byteLength_le_of_suffix {s t : List Char} (h : t <:+ s) : byteLength t ≤ byteLength s := by
  obtain ⟨front, rfl⟩ := h
  rw [byteLength_append]
  exact Nat.le_add_left _ _

end Text

namespace Sliced

open Text

variable {ε α β : Type}

/-! ## Steps of a reader -/

theorem lift_bind {o : Option α} {a : α} (h : o = some a) (f : α → Checked ε β) :
    ((liftM o : Checked ε α) >>= f) = f a := by
  subst h
  rfl

theorem plain_ok_bind (a : α) (f : α → Checked ε β) : (plain (.ok a) >>= f) = f a :=
  rfl

/-! ## Words -/

theorem stripWord?_append {word first : List Char} (h : first.map Char.toLower = word)
    (back : List Char) : stripWord? word (first ++ back) = some (some back) := by
  have hlength : byteLength word = byteLength first := by rw [← h, byteLength_map_toLower]
  rw [stripWord?, hlength, slice?_zero_append, sliceFrom?_append]
  simp only [if_pos h, Option.map_some]

theorem stripWord?_of_forall {word s : List Char}
    (h : ∀ first back, s = first ++ back → first.map Char.toLower ≠ word) :
    stripWord? word s = some none := by
  rw [stripWord?]
  split
  · next first hfirst =>
    -- a slice from the start on has nothing in front of it
    obtain ⟨front, back, rfl, hfront, -⟩ := slice?_eq_some_iff.mp hfirst
    obtain rfl := eq_nil_of_byteLength hfront
    rw [if_neg (h first back rfl)]
  · rfl

/-! ## Queries -/

/-- The root is two letters in any case and a dot. -/
theorem dropRoot_append {first : List Char} (h : first.map Char.toLower = ['d', 'b', '.'])
    (back : List Char) : Query.dropRoot (first ++ back) = back := by
  obtain ⟨d, _, rfl, hd, h⟩ := List.map_eq_cons_iff.mp h
  obtain ⟨b, _, rfl, hb, h⟩ := List.map_eq_cons_iff.mp h
  obtain ⟨c, _, rfl, hc, h⟩ := List.map_eq_cons_iff.mp h
  obtain rfl := List.map_eq_nil_iff.mp h
  rw [eq_of_toLower (by decide) hc]
  exact if_pos ⟨hd, hb⟩

theorem dropRoot_of_forall {s : List Char}
    (h : ∀ first back, s = first ++ back → first.map Char.toLower ≠ ['d', 'b', '.']) :
    Query.dropRoot s = s := by
  unfold Query.dropRoot
  split
  · next d b rest =>
    refine if_neg ?_
    rintro ⟨hd, hb⟩
    refine h [d, b, '.'] rest rfl ?_
    simp only [List.map_cons, List.map_nil, hd, hb]
    rfl
  · rfl

theorem dropRoot?_eq (s : List Char) : dropRoot? s = some (Query.dropRoot s) := by
  by_cases h : ∃ first back, s = first ++ back ∧ first.map Char.toLower = ['d', 'b', '.']
  · obtain ⟨first, back, rfl, hfirst⟩ := h
    rw [dropRoot?, stripWord?_append hfirst, dropRoot_append hfirst]
    rfl
  · simp only [not_exists, not_and] at h
    rw [dropRoot?, stripWord?_of_forall h, dropRoot_of_forall h]
    rfl

/-- The scan for a closing bracket at a boundary reads the text behind it. -/
theorem matchingClose_append (front back : List Char) :
    Bracket.matchingClose (front ++ back) (byteLength front) =
      (Bracket.group (byteLength front) back).map fun g =>
        byteLength front + 1 + byteLength g.inside := by
  rw [Bracket.matchingClose, dropBytes_byteLength]

/-- Brackets take one byte. -/
theorem utf8Size_of_closer? {o c : Char} (h : Bracket.closer? o = some c) :
    o.utf8Size = 1 ∧ c.utf8Size = 1 := by
  unfold Bracket.closer? at h
  split at h <;> cases h <;> decide

/-- A group has one byte for either bracket. -/
theorem byteLength_of_group {position : Nat} {back : List Char} {g : Bracket.Group}
    (h : Bracket.group position back = .ok g) :
    byteLength back = 1 + byteLength g.inside + 1 + byteLength g.rest := by
  obtain ⟨o, c, ho, rfl, -⟩ := Bracket.group_eq_ok_iff.mp h
  obtain ⟨hopen, hclose⟩ := utf8Size_of_closer? ho
  rw [byteLength_cons, byteLength_append, byteLength_cons, hopen, hclose]
  omega

/-- The slices on both sides of a closing bracket. -/
theorem slices_of_group {position : Nat} {back : List Char} {g : Bracket.Group}
    (h : Bracket.group position back = .ok g) (front : List Char) :
    slice? (front ++ back) (byteLength front + 1) (byteLength front + 1 + byteLength g.inside) =
        some g.inside ∧
      sliceFrom? (front ++ back) (byteLength front + 1 + byteLength g.inside + 1) =
        some g.rest := by
  obtain ⟨o, c, ho, rfl, -⟩ := Bracket.group_eq_ok_iff.mp h
  obtain ⟨hopen, hclose⟩ := utf8Size_of_closer? ho
  -- the inside stands behind `front` and one byte, the rest behind the other bracket
  have hinside := slice?_append (front ++ [o]) g.inside (c :: g.rest)
  have hrest := sliceFrom?_append (front ++ o :: (g.inside ++ [c])) g.rest
  simp only [byteLength_append, byteLength_cons, byteLength_nil, hopen, hclose, List.append_assoc,
    List.cons_append, List.nil_append, Nat.add_zero] at hinside hrest
  refine ⟨hinside, ?_⟩
  rw [← hrest]
  congr 1
  omega

theorem parse_eq (text : String) : parse text = plain (Query.parse text) := by
  rw [parse, lift_bind (dropRoot?_eq _)]
  cases hsplit : splitFirst? '(' (Query.dropRoot (trim text.toList)) with
  | none =>
    rw [findByte?_of_splitFirst?_eq_none hsplit, Query.parse, hsplit]
    rfl
  | some parts =>
    obtain ⟨before, after⟩ := parts
    -- the head is the slice up to the parenthesis
    obtain ⟨-, hbody⟩ := splitFirst?_eq_some_iff.mp hsplit
    have hhead := slice?_zero_append before ('(' :: after)
    rw [← hbody] at hhead
    rw [findByte?_of_splitFirst? hsplit]
    simp only [lift_bind hhead, Query.parse, hsplit]
    -- what the head says decides the next steps, which take no slice
    generalize Query.Target.ofNames (Query.headNames before) = target
    cases hcheck : target.check with
    | error e => rfl
    | ok _ =>
      simp only [Except.mapError, plain_ok_bind]
      split
      · rfl
      · cases hop : Query.operationOf (Query.headNames before) target with
        | error e => rfl
        | ok op =>
          have hclose := matchingClose_append before ('(' :: after)
          rw [← hbody] at hclose
          rw [hclose, plain_ok_bind]
          cases hgroup : Bracket.group (byteLength before) ('(' :: after) with
          | error e => rfl
          | ok g =>
            -- the block and the tail are the slices on both sides of the closing bracket
            obtain ⟨hinside, hrest⟩ := slices_of_group hgroup before
            rw [← hbody] at hinside hrest
            simp only [Except.map, plain_ok_bind, lift_bind hinside, lift_bind hrest]
            cases hparameters : Query.readParameters g.inside <;>
              simp only [bind, Except.bind, hparameters] <;> rfl

theorem readCall_eq (front s : List Char) :
    readCall (front ++ s) (byteLength front) =
      plain ((Chain.readCall (byteLength front) s).map fun step =>
        (step.call, byteLength (front ++ s) - byteLength step.rest)) := by
  rw [readCall, lift_bind (sliceFrom?_append front s)]
  cases hsplit : splitFirst? '(' s with
  | none =>
    rw [findByte?_of_splitFirst?_eq_none hsplit, Chain.readCall, hsplit]
    rfl
  | some parts =>
    obtain ⟨before, after⟩ := parts
    obtain ⟨-, rfl⟩ := splitFirst?_eq_some_iff.mp hsplit
    rw [findByte?_of_splitFirst? hsplit, Chain.readCall, hsplit]
    simp only [lift_bind (slice?_append front before ('(' :: after))]
    split
    · rfl
    · -- the bracket opens behind the name
      have hclose := matchingClose_append (front ++ before) ('(' :: after)
      rw [byteLength_append, List.append_assoc] at hclose
      rw [hclose]
      cases hgroup : Bracket.group (byteLength front + byteLength before) ('(' :: after) with
      | error e => rfl
      | ok g =>
        obtain ⟨hinside, -⟩ := slices_of_group hgroup (front ++ before)
        rw [byteLength_append, List.append_assoc] at hinside
        have hnext : byteLength front + byteLength before + 1 + byteLength g.inside + 1 =
            byteLength (front ++ (before ++ '(' :: after)) - byteLength g.rest := by
          have hlength := byteLength_of_group hgroup
          rw [byteLength_append, byteLength_append]
          omega
        simp only [Except.map, plain_ok_bind, lift_bind hinside, hnext]
        rfl

theorem exists_of_readCall {position : Nat} {s : List Char} {step : Chain.Step}
    (h : Chain.readCall position s = .ok step) : ∃ passed, s = passed ++ step.rest := by
  unfold Chain.readCall at h
  split at h
  · cases h
  · next before after hsplit =>
    obtain ⟨-, rfl⟩ := splitFirst?_eq_some_iff.mp hsplit
    simp only at h
    split at h
    · cases h
    · obtain ⟨g, hgroup, h⟩ := Outcome.bind_eq_ok_iff.mp h
      cases h
      obtain ⟨o, c, -, heq, -⟩ := Bracket.group_eq_ok_iff.mp hgroup
      exact ⟨before ++ o :: (g.inside ++ [c]), by simp [heq]⟩

/-- The dot and the call behind it are passed over. -/
theorem exists_of_dropBlank_of_readCall {position : Nat} {s r : List Char} {c : Char}
    {step : Chain.Step} (htrimmed : dropBlank s = c :: r)
    (hcall : Chain.readCall position r = .ok step) :
    ∃ passed, passed ≠ [] ∧ s = passed ++ step.rest := by
  obtain ⟨blank, -, hblank⟩ := exists_blank_append_dropBlank s
  obtain ⟨before, hr⟩ := exists_of_readCall hcall
  refine ⟨blank ++ c :: before, by simp, ?_⟩
  rw [hblank, htrimmed, hr]
  simp

/-- A round reads one chained call and stops behind it. -/
theorem round_eq (front s : List Char) :
    round (front ++ s) (byteLength front) =
      plain (match dropBlank s with
        | [] => .ok none
        | c :: r =>
          if c = '.' then
            (Chain.readCall (byteLength (front ++ s) - byteLength r) r).map fun step =>
              some (step.call, byteLength (front ++ s) - byteLength step.rest)
          else .error (.noDot (String.ofList (c :: r)))) := by
  rw [round, lift_bind (sliceFrom?_append front s)]
  cases htrimmed : dropBlank s with
  | nil => rfl
  | cons c r =>
    obtain ⟨blank, -, hblank⟩ := exists_blank_append_dropBlank s
    rw [htrimmed] at hblank
    -- trimming leaves an end of the text, so the difference is the length of the blank front
    have hskipped : difference? (byteLength s) (byteLength (c :: r)) = some (byteLength blank) := by
      rw [hblank, byteLength_append, difference?, if_pos (Nat.le_add_left _ _), Nat.add_sub_cancel]
    simp only [List.isEmpty_cons, Bool.false_eq_true, if_false, lift_bind hskipped, List.head?_cons,
      Option.some.injEq]
    split
    · next hdot =>
      subst hdot
      -- the call is read behind the blank front and the dot
      have hcall := readCall_eq (front ++ (blank ++ ['.'])) r
      have htail : front ++ (blank ++ ['.']) ++ r = front ++ s := by simp [hblank]
      have hposition : byteLength (front ++ (blank ++ ['.'])) =
          byteLength front + byteLength blank + 1 := by
        rw [byteLength_append, byteLength_append]
        exact (Nat.add_assoc _ _ _).symm
      have hdistance : byteLength front + byteLength blank + 1 =
          byteLength (front ++ s) - byteLength r := by
        rw [← hposition, ← htail, byteLength_append_sub]
      rw [htail, hposition] at hcall
      rw [hcall, ← hdistance]
      cases Chain.readCall (byteLength front + byteLength blank + 1) r <;> rfl
    · rfl

/-- The rounds from a boundary on split the text behind it. -/
theorem splitFrom_eq {front s : List Char} {fuel : Nat} (h : s.length < fuel) :
    splitFrom (front ++ s) fuel (byteLength front) =
      plain (Chain.splitWith (byteLength (front ++ s)) fuel s) := by
  induction fuel generalizing front s with
  | zero => exact absurd h (Nat.not_lt_zero _)
  | succ fuel ih =>
    rw [splitFrom, round_eq, Chain.splitWith]
    cases htrimmed : dropBlank s with
    | nil => rfl
    | cons c r =>
      simp only
      split
      · cases hcall : Chain.readCall (byteLength (front ++ s) - byteLength r) r with
        | error e => rfl
        | ok step =>
          obtain ⟨passed, hpassed, rfl⟩ := exists_of_dropBlank_of_readCall htrimmed hcall
          have hshort : step.rest.length < fuel := by
            have hpos := List.length_pos_of_ne_nil hpassed
            rw [List.length_append] at h
            omega
          -- the next round starts behind the call
          have hnext : byteLength (front ++ (passed ++ step.rest)) - byteLength step.rest =
              byteLength (front ++ passed) := by
            rw [← List.append_assoc, byteLength_append_sub]
          have hmore := @ih (front ++ passed) step.rest hshort
          rw [List.append_assoc] at hmore
          simp only [Except.map, plain_ok_bind, hnext, hmore]
          cases hcalls :
              Chain.splitWith (byteLength (front ++ (passed ++ step.rest))) fuel step.rest <;>
            simp only [bind, Except.bind, hcalls] <;> rfl
      · rfl

theorem split_eq (tail : List Char) : split tail = plain (Chain.split tail) :=
  @splitFrom_eq [] tail (tail.length + 1) (Nat.lt_succ_self _)

theorem ofTail_eq (tail : List Char) : ofTail tail = plain (Modifiers.ofTail tail) := by
  rw [ofTail, split_eq, Modifiers.ofTail]
  cases Chain.split tail <;> rfl

/-! ## Scripts -/

/-- The name of a literal is a word in any case. -/
theorem exists_stripWord?_oid (s : List Char) :
    ∃ behind, stripWord? ['$', 'o', 'i', 'd'] s = some behind ∧
      behind.map dropBlank = ScriptText.dropName s := by
  by_cases h : ∃ first back, s = first ++ back ∧ first.map Char.toLower = ['$', 'o', 'i', 'd']
  · obtain ⟨first, back, rfl, hfirst⟩ := h
    refine ⟨some back, stripWord?_append hfirst back, ?_⟩
    -- the word has four characters
    obtain ⟨a, _, rfl, ha, h⟩ := List.map_eq_cons_iff.mp hfirst
    obtain ⟨b, _, rfl, hb, h⟩ := List.map_eq_cons_iff.mp h
    obtain ⟨c, _, rfl, hc, h⟩ := List.map_eq_cons_iff.mp h
    obtain ⟨d, _, rfl, hd, h⟩ := List.map_eq_cons_iff.mp h
    obtain rfl := List.map_eq_nil_iff.mp h
    exact (if_pos hfirst).symm
  · simp only [not_exists, not_and] at h
    refine ⟨none, stripWord?_of_forall h, ?_⟩
    unfold ScriptText.dropName
    split
    · next a b c d r => rw [if_neg (h [a, b, c, d] r rfl)]; rfl
    · rfl

/-- The outcome for a literal: where it ends and its id. -/
def spanned (input : List Char) : Option (List Char × List Char) → Except Unit (Nat × List Char)
  | some (id, rest) => .ok (byteLength input - byteLength rest, id)
  | none => .error ()

/-- A step that both readers take. -/
theorem present_bind {input : List Char} {o : Option α}
    {f : α → Checked Unit (Nat × List Char)} {g : α → Option (List Char × List Char)}
    (h : ∀ a, o = some a → f a = plain (spanned input (g a))) :
    (present o >>= f) = plain (spanned input (o >>= g)) := by
  cases o with
  | none => rfl
  | some a => exact h a rfl

theorem matchLiteral_eq (input : List Char) :
    matchLiteral input = plain (spanned input (ScriptText.readLiteral input)) := by
  unfold matchLiteral ScriptText.readLiteral
  -- both take the same marks off the front, and the name between them in two steps or in one
  refine present_bind fun s₁ h₁ => present_bind fun s₂ h₂ => ?_
  obtain ⟨behind, hstrip, hname⟩ := exists_stripWord?_oid s₂
  rw [lift_bind hstrip, hname]
  refine present_bind fun s₃ h₃ => present_bind fun s₄ h₄ => present_bind fun s₅ h₅ =>
    present_bind fun s₆ h₆ => ?_
  obtain ⟨hstop, hid, hbehind⟩ := slices_of_takeWhile ScriptText.isIdChar s₆
  simp only [hstop]
  split
  · next hzero =>
    rw [eq_nil_of_byteLength hzero]
    rfl
  · next hpos =>
    -- the id is not empty, and its end is the first character that may not stand in it
    have hne : (s₆.takeWhile ScriptText.isIdChar).isEmpty = false := by
      cases hid : s₆.takeWhile ScriptText.isIdChar with
      | nil => rw [hid] at hpos; exact absurd rfl hpos
      | cons => rfl
    rw [lift_bind hid, lift_bind hbehind, hne]
    refine present_bind fun s₇ h₇ => ?_
    cases s₇ with
    | nil => rfl
    | cons c rest =>
      by_cases hbrace : c = '}'
      · subst hbrace
        -- what is left is an end of the input, so the length is no negative number
        have hread : ScriptText.readLiteral input =
            some ((s₆.takeWhile ScriptText.isIdChar).map Char.toLower, rest) := by
          simp only [ScriptText.readLiteral, h₁, h₂, h₃, h₄, h₅, h₆, hne, h₇, Option.bind_eq_bind,
            Option.bind_some, Bool.false_eq_true, if_false]
        have hsuffix := (ScriptText.suffix_of_readLiteral hread).trans (List.tail_suffix input)
        rw [if_pos (List.head?_cons)]
        exact lift_bind (if_pos (byteLength_le_of_suffix hsuffix)) _
      · rw [if_neg (by simpa using hbrace)]
        split
        · next heq =>
          cases heq
          exact absurd rfl hbrace
        · rfl

/-- A round ends behind a literal or behind a brace that starts none. -/
theorem replaceNext_of_splitFirst? {s before r : List Char}
    (h : splitFirst? '{' s = some (before, r)) :
    replaceNext s =
      match ScriptText.readLiteral ('{' :: r) with
      | some (id, rest) => some (some (before ++ ScriptText.idCall id, rest))
      | none => some (some (before ++ ['{'], r)) := by
  obtain ⟨-, rfl⟩ := splitFirst?_eq_some_iff.mp h
  have hbrace : sliceFrom? ('{' :: r) 1 = some r := sliceFrom?_append ['{'] r
  rw [replaceNext, findByte?_of_splitFirst? h]
  simp only [slice?_zero_append, sliceFrom?_append, Option.bind_eq_bind, Option.bind_some,
    matchLiteral_eq]
  cases hread : ScriptText.readLiteral ('{' :: r) with
  | none => simp [plain, spanned, hbrace]
  | some found =>
    obtain ⟨id, rest⟩ := found
    -- the length of a literal is that of the text in front of what is left
    obtain ⟨front, hfront⟩ :=
      (ScriptText.suffix_of_readLiteral hread).trans (List.suffix_cons '{' r)
    have hrest := sliceFrom?_append front rest
    have hlength : byteLength ('{' :: r) - byteLength rest = byteLength front := by
      rw [← hfront, byteLength_append_sub]
    rw [hfront] at hrest
    simp [plain, spanned, hlength, hrest]

/-- The text behind a round is the end of what was there before it, without the brace. -/
theorem suffix_of_replaceNext {s written rest : List Char}
    (h : replaceNext s = some (some (written, rest))) :
    ∃ front, front ≠ [] ∧ s = front ++ rest ∧
      ScriptText.replaceIds s = written ++ ScriptText.replaceIds rest := by
  cases hsplit : splitFirst? '{' s with
  | none =>
    rw [replaceNext, findByte?_of_splitFirst?_eq_none hsplit] at h
    cases h
  | some parts =>
    obtain ⟨before, r⟩ := parts
    obtain ⟨hmark, rfl⟩ := splitFirst?_eq_some_iff.mp hsplit
    have hbefore : ∀ c ∈ before, c ≠ '{' := fun c hc heq => hmark (heq ▸ hc)
    rw [replaceNext_of_splitFirst? hsplit] at h
    rw [ScriptText.replaceIds_append hbefore]
    split at h
    · next id behind hread =>
      -- behind a literal
      cases h
      obtain ⟨front, hfront⟩ := ScriptText.suffix_of_readLiteral hread
      refine ⟨before ++ '{' :: front, by simp, ?_, ?_⟩
      · rw [List.append_assoc, List.cons_append, hfront]
        rfl
      · rw [ScriptText.replaceIds_of_readLiteral hread, List.append_assoc]
    · next hread =>
      -- behind a brace that starts none
      cases h
      refine ⟨before ++ ['{'], by simp, by simp, ?_⟩
      rw [ScriptText.replaceIds_cons hread, List.append_assoc]
      rfl

/-- Each round has an outcome, and only a text without a brace ends the rounds. -/
theorem replaceNext_cases (s : List Char) :
    (replaceNext s = some none ∧ ScriptText.replaceIds s = s) ∨
      ∃ written rest, replaceNext s = some (some (written, rest)) := by
  cases hsplit : splitFirst? '{' s with
  | none =>
    have hmark := splitFirst?_eq_none_iff.mp hsplit
    have hids := @ScriptText.replaceIds_append [] s fun c hc heq => hmark (heq ▸ hc)
    rw [ScriptText.replaceIds_nil, List.append_nil] at hids
    exact .inl ⟨by rw [replaceNext, findByte?_of_splitFirst?_eq_none hsplit], hids⟩
  | some parts =>
    right
    rw [replaceNext_of_splitFirst? hsplit]
    split
    · exact ⟨_, _, rfl⟩
    · exact ⟨_, _, rfl⟩

/-- The rounds from a text on replace all its literals. -/
theorem replaceFrom_eq {fuel : Nat} {s : List Char} (h : s.length < fuel) :
    replaceFrom fuel s = some (ScriptText.replaceIds s) := by
  induction fuel generalizing s with
  | zero => exact absurd h (Nat.not_lt_zero _)
  | succ fuel ih =>
    obtain ⟨hdone, hids⟩ | ⟨written, rest, hnext⟩ := replaceNext_cases s
    · rw [replaceFrom, hdone, hids]
      rfl
    · obtain ⟨front, hfront, rfl, hids⟩ := suffix_of_replaceNext hnext
      -- a round leaves fewer characters, so the fuel lasts
      have hshort : rest.length < fuel := by
        have hpos := List.length_pos_of_ne_nil hfront
        rw [List.length_append] at h
        omega
      rw [replaceFrom, hnext, hids]
      simp [ih hshort]

theorem replaceIds_eq (s : List Char) : replaceIds s = some (ScriptText.replaceIds s) :=
  replaceFrom_eq (Nat.lt_succ_self _)

/-! ## Positions -/

/-- The positions of a group's brackets are boundaries, and so is the one behind the group. -/
theorem isBoundary_of_matchingClose {text : List Char} {opening close : Nat}
    (h : Bracket.matchingClose text opening = .ok close) :
    opening < close ∧ IsBoundary text opening ∧ IsBoundary text close ∧
      IsBoundary text (close + 1) := by
  unfold Bracket.matchingClose at h
  split at h
  · cases h
  · next behind hbehind =>
    obtain ⟨front, rfl, rfl⟩ := dropBytes_eq_some_iff.mp hbehind
    obtain ⟨g, hgroup, rfl⟩ := Outcome.map_eq_ok_iff.mp h
    obtain ⟨hinside, hrest⟩ := slices_of_group hgroup front
    have hinside := isSome_slice?_iff.mp (Option.isSome_of_eq_some hinside)
    have hrest := isSome_slice?_iff.mp (Option.isSome_of_eq_some hrest)
    have hlt : byteLength front < byteLength front + 1 + byteLength g.inside :=
      Nat.lt_of_lt_of_le (Nat.lt_succ_self _) (Nat.le_add_right _ _)
    exact ⟨hlt, isBoundary_append front behind, hinside.2.2, hrest.2.1⟩

/-- The scan reports a position that is no boundary. -/
theorem matchingClose_of_not_isBoundary {text : List Char} {opening : Nat}
    (h : ¬IsBoundary text opening) :
    Bracket.matchingClose text opening = .error (.outOfRange opening) := by
  unfold Bracket.matchingClose
  split
  · rfl
  · next behind hbehind =>
    obtain ⟨front, htext, hfront⟩ := dropBytes_eq_some_iff.mp hbehind
    exact absurd ⟨front, behind, htext, hfront⟩ h

/-- A round moves on to a later boundary. -/
theorem isBoundary_of_round {tail : List Char} {position next : Nat} {call : ChainedCall}
    (h : round tail position = plain (.ok (some (call, next)))) :
    position < next ∧ IsBoundary tail next := by
  cases hslice : sliceFrom? tail position with
  | none =>
    rw [round, hslice] at h
    cases h
  | some behind =>
    -- the round takes a slice from its position on, which is a boundary for that
    obtain ⟨-, ⟨front, s, rfl, rfl⟩, -⟩ :=
      isSome_slice?_iff.mp (Option.isSome_of_eq_some hslice)
    rw [round_eq] at h
    have h := Option.some.inj h
    split at h
    · cases h
    · next c r htrimmed =>
      split at h
      · obtain ⟨step, hcall, h⟩ := Outcome.map_eq_ok_iff.mp h
        cases h
        obtain ⟨passed, hpassed, rfl⟩ := exists_of_dropBlank_of_readCall htrimmed hcall
        have hpos : byteLength passed ≠ 0 := fun h => hpassed (eq_nil_of_byteLength h)
        rw [← List.append_assoc, byteLength_append_sub]
        refine ⟨?_, isBoundary_append (front ++ passed) step.rest⟩
        rw [byteLength_append]
        omega
      · cases h

/-- Every reader has an outcome for every text: the slices that it takes exist, no difference of
    positions is negative and each loop ends.  The scan for a closing bracket takes any position,
    reports one that is no boundary and finds boundaries; each round of splitting moves on to a
    later boundary, and each round of replacing leaves a shorter end of the text. -/
theorem all_slices_exist :
    (∀ text, parse text = plain (Query.parse text)) ∧
    (∀ tail, split tail = plain (Chain.split tail)) ∧
    (∀ tail, ofTail tail = plain (Modifiers.ofTail tail)) ∧
    (∀ script, replaceIds script = some (ScriptText.replaceIds script)) ∧
    (∀ text opening, ¬IsBoundary text opening →
      Bracket.matchingClose text opening = .error (.outOfRange opening)) ∧
    (∀ text opening close, Bracket.matchingClose text opening = .ok close →
      opening < close ∧ IsBoundary text opening ∧ IsBoundary text close ∧
        IsBoundary text (close + 1)) ∧
    (∀ tail position call next, round tail position = plain (.ok (some (call, next))) →
      position < next ∧ IsBoundary tail next) ∧
    ∀ script written rest, replaceNext script = some (some (written, rest)) →
      ∃ front, front ≠ [] ∧ script = front ++ rest := by
  refine ⟨parse_eq, split_eq, ofTail_eq, replaceIds_eq, ?_, ?_, ?_, ?_⟩
  · intro text opening h
    exact matchingClose_of_not_isBoundary h
  · intro text opening close h
    exact isBoundary_of_matchingClose h
  · intro tail position call next h
    exact isBoundary_of_round h
  · intro script written rest h
    obtain ⟨front, hfront, hscript, -⟩ := suffix_of_replaceNext h
    exact ⟨front, hfront, hscript⟩

/-- The characters in front of the brackets and between them take more than one byte. -/
theorem all_slices_exist_wide :
    (¬IsBoundary "é(日)".toList 1 ∧
      Bracket.matchingClose "é(日)".toList 1 = .error (.outOfRange 1)) ∧
    (Bracket.matchingClose "é(日)".toList 2 = .ok 6 ∧ IsBoundary "é(日)".toList 6) ∧
    (round "\u3000.limit(日)".toList 0 = plain (.ok (some (⟨"limit", "日"⟩, 14))) ∧
      IsBoundary "\u3000.limit(日)".toList 14) ∧
    (replaceNext "é\x7b日".toList = some (some ("é\x7b".toList, "日".toList)) ∧
      ∃ front, front ≠ [] ∧ "é\x7b日".toList = front ++ "日".toList) := by
  obtain ⟨-, -, -, -, hinside, hclose, hround, hnext⟩ := all_slices_exist
  have hmiddle : ¬IsBoundary "é(日)".toList 1 := by
    intro h
    have hslice := isSome_slice?_iff.mpr ⟨Nat.le_refl 1, h, h⟩
    exact absurd hslice (by decide)
  refine ⟨⟨hmiddle, hinside _ 1 hmiddle⟩, ⟨by rfl, ?_⟩, ⟨by rfl, ?_⟩, by rfl, ?_⟩
  · exact (hclose _ 2 6 (by rfl)).2.2.1
  · exact (hround _ 0 ⟨"limit", "日"⟩ 14 (by rfl)).2
  · exact hnext _ "é\x7b".toList _ (by rfl)

end Sliced

end ShellQuery
