import ShellQuery.Text.Blank

/-!
# Byte positions in a text

Positions in messages count the bytes of the UTF-8 form of a text, of which a character has one to
four.  A position inside a character is no position of the text.
-/

namespace ShellQuery.Text

/-! ## Lengths -/

/-- The number of bytes of a text. -/
def byteLength : List Char → Nat
  | [] => 0
  | c :: r => c.utf8Size + byteLength r

/-- The part of a text from a byte position on, none when the position lies beyond the end or
    inside a character. -/
def dropBytes : Nat → List Char → Option (List Char)
  | 0, s => some s
  | _ + 1, [] => none
  | n + 1, c :: r => if c.utf8Size ≤ n + 1 then dropBytes (n + 1 - c.utf8Size) r else none

theorem byteLength_append (s t : List Char) :
    byteLength (s ++ t) = byteLength s + byteLength t := by
  induction s with
  | nil => simp [byteLength]
  | cons c r ih => simp [byteLength, ih, Nat.add_assoc]

/-- Dropping the bytes of the first part of a text leaves the second part. -/
theorem dropBytes_byteLength (s t : List Char) : dropBytes (byteLength s) (s ++ t) = some t := by
  induction s with
  | nil => simp [byteLength, dropBytes]
  | cons c r ih =>
    have pos : 0 < c.utf8Size := c.utf8Size_pos
    obtain ⟨n, hn⟩ : ∃ n, byteLength (c :: r) = n + 1 :=
      ⟨c.utf8Size + byteLength r - 1, by simp only [byteLength]; omega⟩
    have fits : c.utf8Size ≤ n + 1 := by rw [← hn, byteLength]; omega
    have left : n + 1 - c.utf8Size = byteLength r := by rw [← hn, byteLength]; omega
    rw [hn, List.cons_append, dropBytes, if_pos fits, left, ih]

/-! ## Splitting -/

/-- The parts of a text between the occurrences of a character; there is at least one. -/
def splitOn (mark : Char) : List Char → List (List Char)
  | [] => [[]]
  | c :: r =>
    if c = mark then [] :: splitOn mark r
    else
      match splitOn mark r with
      | first :: rest => (c :: first) :: rest
      | [] => [[c]]

/-- The text before the first occurrence of a character and the text after it, none when it does
    not occur. -/
def splitFirst? (mark : Char) : List Char → Option (List Char × List Char)
  | [] => none
  | c :: r =>
    if c = mark then some ([], r)
    else (splitFirst? mark r).map fun parts => (c :: parts.1, parts.2)

theorem splitFirst?_eq_some {mark : Char} {s before after : List Char}
    (h : splitFirst? mark s = some (before, after)) : s = before ++ mark :: after := by
  induction s generalizing before with
  | nil => simp [splitFirst?] at h
  | cons c r ih =>
    by_cases hc : c = mark
    · simp only [splitFirst?, hc, if_true, Option.some.injEq, Prod.mk.injEq] at h
      obtain ⟨rfl, rfl⟩ := h
      simp [hc]
    · simp only [splitFirst?, hc, if_false, Option.map_eq_some_iff, Prod.mk.injEq] at h
      obtain ⟨parts, found, rfl, rfl⟩ := h
      simp [ih found]

end ShellQuery.Text
