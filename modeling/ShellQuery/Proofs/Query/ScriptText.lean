import ShellQuery.Query.ScriptText
import ShellQuery.Text.Slice

/-!
# Replacing the literals of a script

`ScriptText.replaceIds` passes over a text once.  Text without a brace stays as it is
(`replaceIds_append`), a literal becomes its call (`replaceIds_of_readLiteral`), and the brace of
anything else stays (`replaceIds_cons`).  The fuel of `replaceWith` never shows
(`replaceWith_eq`), since no round gives back as much text as it was given.
-/

namespace ShellQuery.ScriptText

open Text

variable {s t before rest id : List Char} {c mark : Char}

/-! ## The text behind a literal -/

theorem suffix_tail_of_dropMark (h : dropMark mark s = some t) : t <:+ s.tail := by
  unfold dropMark at h
  split at h
  · obtain ⟨-, h⟩ := Option.ite_none_right_eq_some.mp h
    cases h
    exact List.dropWhile_suffix _
  · cases h

theorem suffix_of_dropMark (h : dropMark mark s = some t) : t <:+ s :=
  (suffix_tail_of_dropMark h).trans (List.tail_suffix s)

theorem suffix_of_dropName (h : dropName s = some t) : t <:+ s := by
  unfold dropName at h
  split at h
  · next a b c d r =>
    obtain ⟨-, h⟩ := Option.ite_none_right_eq_some.mp h
    cases h
    exact (List.dropWhile_suffix _).trans (List.suffix_append [a, b, c, d] r)
  · cases h

/-- Only a brace starts a literal. -/
theorem readLiteral_of_ne (h : c ≠ '{') : readLiteral (c :: s) = none := by
  rw [readLiteral, dropMark, if_neg h]
  rfl

/-- The text behind a literal leaves out its brace and more. -/
theorem suffix_of_readLiteral (h : readLiteral s = some (id, rest)) : rest <:+ s.tail := by
  obtain ⟨s₁, h₁, h⟩ := Option.bind_eq_some_iff.mp h
  obtain ⟨s₂, h₂, h⟩ := Option.bind_eq_some_iff.mp h
  obtain ⟨s₃, h₃, h⟩ := Option.bind_eq_some_iff.mp h
  obtain ⟨s₄, h₄, h⟩ := Option.bind_eq_some_iff.mp h
  obtain ⟨s₅, h₅, h⟩ := Option.bind_eq_some_iff.mp h
  obtain ⟨s₆, h₆, h⟩ := Option.bind_eq_some_iff.mp h
  have hvalue : s₆ <:+ s.tail :=
    (suffix_of_dropMark h₆).trans <| (suffix_of_dropMark h₅).trans <|
      (suffix_of_dropMark h₄).trans <| (suffix_of_dropName h₃).trans <|
        (suffix_of_dropMark h₂).trans (suffix_tail_of_dropMark h₁)
  obtain ⟨-, h⟩ := Option.ite_none_left_eq_some.mp h
  obtain ⟨s₇, h₇, h⟩ := Option.bind_eq_some_iff.mp h
  split at h
  · cases h
    -- the characters of the id and the marks behind it are left out, too
    exact (List.suffix_cons _ _).trans <| (suffix_of_dropMark h₇).trans <|
      (List.dropWhile_suffix _).trans <| (List.dropWhile_suffix _).trans hvalue
  · cases h

/-! ## Rounds -/

/-- The fuel does not matter as long as it is no smaller than the length of the text. -/
theorem replaceWith_congr {n m : Nat} (hn : s.length ≤ n) (hm : s.length ≤ m) :
    replaceWith n s = replaceWith m s := by
  induction n generalizing m s with
  | zero =>
    obtain rfl := List.eq_nil_of_length_eq_zero (Nat.le_zero.mp hn)
    cases m <;> rfl
  | succ n ih =>
    cases s with
    | nil => cases m <;> rfl
    | cons c r =>
      cases m with
      | zero => exact absurd hm (Nat.not_succ_le_zero _)
      | succ m =>
        rw [List.length_cons] at hn hm
        rw [replaceWith, replaceWith]
        split
        · next id rest hread =>
          have hle : rest.length ≤ r.length := (suffix_of_readLiteral hread).length_le
          have hmore : replaceWith n rest = replaceWith m rest := ih (by omega) (by omega)
          rw [hmore]
        · have hmore : replaceWith n r = replaceWith m r := ih (by omega) (by omega)
          rw [hmore]

theorem replaceWith_eq {n : Nat} (h : s.length ≤ n) : replaceWith n s = replaceIds s :=
  replaceWith_congr h (Nat.le_refl _)

theorem replaceIds_nil : replaceIds [] = [] :=
  rfl

/-- A literal becomes a call. -/
theorem replaceIds_of_readLiteral (h : readLiteral (c :: s) = some (id, rest)) :
    replaceIds (c :: s) = idCall id ++ replaceIds rest := by
  have hle : rest.length ≤ s.length := (suffix_of_readLiteral h).length_le
  rw [replaceIds, List.length_cons, replaceWith, h]
  simp only [replaceWith_eq hle]

/-- A character that starts no literal stays. -/
theorem replaceIds_cons (h : readLiteral (c :: s) = none) :
    replaceIds (c :: s) = c :: replaceIds s := by
  rw [replaceIds, List.length_cons, replaceWith, h]
  rfl

/-- Text without a brace stays. -/
theorem replaceIds_append (h : ∀ c ∈ before, c ≠ '{') :
    replaceIds (before ++ s) = before ++ replaceIds s := by
  induction before with
  | nil => rfl
  | cons c r ih =>
    obtain ⟨hc, hr⟩ := List.forall_mem_cons.mp h
    rw [List.cons_append, replaceIds_cons (readLiteral_of_ne hc), ih hr, List.cons_append]

end ShellQuery.ScriptText
