import Mathlib.Data.List.DropRight
import Mathlib.Data.List.TakeDrop
import Mathlib.Data.List.TakeWhile
import ShellQuery.Text.Alphanumeric
import ShellQuery.Text.Bytes

/-!
# Splitting and trimming names

A text without a mark is one part, and a text is split at the first mark before the rest is.  Names
of letters, digits and underscores hold none of the marks of a query and have no blank ends, so that
neither splitting nor trimming touches them.
-/

namespace ShellQuery.Text

/-! ## Splitting -/

/-- A run of characters is taken up to the first that is none of them. -/
theorem span_append_cons {p : Char → Bool} {s rest : List Char} {c : Char}
    (hs : ∀ d ∈ s, p d = true) (hc : p c = false) :
    (s ++ c :: rest).span p = (s, c :: rest) := by
  rw [List.span_eq_takeWhile_dropWhile, List.takeWhile_append_of_pos hs,
    List.dropWhile_append_of_pos hs, List.takeWhile_cons_of_neg (by simp [hc]),
    List.dropWhile_cons_of_neg (by simp [hc]), List.append_nil]

theorem span_of_forall {p : Char → Bool} {s : List Char} (hs : ∀ d ∈ s, p d = true) :
    s.span p = (s, []) := by
  rw [List.span_eq_takeWhile_dropWhile, List.takeWhile_eq_self_iff.mpr hs,
    List.dropWhile_eq_nil_iff.mpr hs]

section

variable {mark : Char} {s t : List Char}

theorem splitOn_of_not_mem (h : mark ∉ s) : splitOn mark s = [s] := by
  induction s with
  | nil => rfl
  | cons c r ih =>
    rw [List.mem_cons, not_or] at h
    rw [splitOn, if_neg (Ne.symm h.1), ih h.2]

theorem splitOn_append_cons (h : mark ∉ s) :
    splitOn mark (s ++ mark :: t) = s :: splitOn mark t := by
  induction s with
  | nil => exact if_pos rfl
  | cons c r ih =>
    rw [List.mem_cons, not_or] at h
    rw [List.cons_append, splitOn, if_neg (Ne.symm h.1), ih h.2]

theorem splitOn_ne_nil (mark : Char) (s : List Char) : splitOn mark s ≠ [] := by
  cases s with
  | nil => exact List.cons_ne_nil _ _
  | cons c r =>
    rw [splitOn]
    split
    · exact List.cons_ne_nil _ _
    · split <;> exact List.cons_ne_nil _ _

/-- The parts of a text stand in front of those of what is appended behind a mark. -/
theorem splitOn_append_mark (mark : Char) (s t : List Char) :
    splitOn mark (s ++ mark :: t) = splitOn mark s ++ splitOn mark t := by
  induction s with
  | nil => exact if_pos rfl
  | cons c r ih =>
    rw [List.cons_append, splitOn, splitOn, ih]
    obtain ⟨first, rest, hparts⟩ := List.exists_cons_of_ne_nil (splitOn_ne_nil mark r)
    rw [hparts]
    split <;> rfl

/-- All characters but the marks are in the parts. -/
theorem exists_mem_splitOn {c : Char} (hc : c ∈ s) (hne : c ≠ mark) :
    ∃ part ∈ splitOn mark s, c ∈ part := by
  obtain ⟨before, after, rfl⟩ := List.append_of_mem hc
  induction before with
  | nil =>
    rw [List.nil_append, splitOn, if_neg hne]
    split
    · exact ⟨_, List.mem_cons_self, List.mem_cons_self⟩
    · exact ⟨_, List.mem_cons_self, List.mem_cons_self⟩
  | cons d r ih =>
    obtain ⟨part, hpart, hin⟩ := ih (by simp)
    rw [List.cons_append, splitOn]
    split
    · exact ⟨part, List.mem_cons_of_mem _ hpart, hin⟩
    · split
      · next first rest heq =>
        rw [heq] at hpart
        -- the first part has become longer
        obtain rfl | hrest := List.mem_cons.mp hpart
        · exact ⟨_, List.mem_cons_self, List.mem_cons_of_mem _ hin⟩
        · exact ⟨part, List.mem_cons_of_mem _ hrest, hin⟩
      · next heq => exact absurd heq (splitOn_ne_nil mark _)

/-- The parts of a text with the mark between them make up the text. -/
theorem intercalate_splitOn (mark : Char) (s : List Char) :
    [mark].intercalate (splitOn mark s) = s := by
  induction s with
  | nil => rfl
  | cons c r ih =>
    obtain ⟨first, rest, hparts⟩ := List.exists_cons_of_ne_nil (splitOn_ne_nil mark r)
    rw [hparts] at ih
    rw [splitOn, hparts]
    split
    · next hc =>
      rw [List.intercalate_cons_cons, ih, hc]
      rfl
    · -- the character goes in front of the first part
      cases rest with
      | nil => rw [List.intercalate_singleton] at ih ⊢; rw [ih]
      | cons other rest =>
        rw [List.intercalate_cons_cons] at ih ⊢
        rw [← ih]
        rfl

/-- A text is split into its parts when each of them follows a mark but the first. -/
theorem splitOn_append_flatMap {parts : List (List Char)} (hs : mark ∉ s)
    (hparts : ∀ part ∈ parts, mark ∉ part) :
    splitOn mark (s ++ parts.flatMap (mark :: ·)) = s :: parts := by
  induction parts generalizing s with
  | nil => rw [List.flatMap_nil, List.append_nil, splitOn_of_not_mem hs]
  | cons part rest ih =>
    obtain ⟨hpart, hrest⟩ := List.forall_mem_cons.mp hparts
    rw [List.flatMap_cons, List.cons_append, splitOn_append_cons hs, ih hpart hrest]

end

/-! ## Trimming -/

/-- Trimming leaves a text alone that neither starts nor ends with a blank. -/
theorem trim_eq_self {s : List Char} (hfirst : ∀ c ∈ s.head?, isBlank c = false)
    (hlast : ∀ c ∈ s.getLast?, isBlank c = false) : trim s = s := by
  have hdrop : ∀ l : List Char, (∀ c ∈ l.head?, isBlank c = false) → l.dropWhile isBlank = l := by
    intro l hl
    cases l with
    | nil => rfl
    | cons c r => exact List.dropWhile_cons_of_neg (by simp [hl c rfl])
  have hback : ∀ c ∈ s.reverse.head?, isBlank c = false := by rwa [List.head?_reverse]
  rw [trim, dropBlank, hdrop s hfirst, dropBlankEnd, hdrop s.reverse hback, List.reverse_reverse]

/-- Trimming leaves a text without blank characters alone. -/
theorem trim_eq_of_forall {s : List Char} (h : ∀ c ∈ s, isBlank c = false) : trim s = s :=
  trim_eq_self (fun c hc => h c (List.mem_of_mem_head? hc))
    fun c hc => h c (List.mem_of_mem_getLast? hc)

/-- A text of blank characters. -/
def IsBlankText (s : List Char) : Prop :=
  ∀ c ∈ s, isBlank c = true

instance (s : List Char) : Decidable (IsBlankText s) :=
  decidable_of_iff (s.all isBlank = true) List.all_eq_true

theorem IsBlankText.not_mem {s : List Char} (h : IsBlankText s) {mark : Char}
    (hmark : isBlank mark = false) : mark ∉ s := by
  intro hmem
  rw [h mark hmem] at hmark
  cases hmark

theorem dropBlank_append {before : List Char} (h : IsBlankText before) (s : List Char) :
    dropBlank (before ++ s) = dropBlank s :=
  List.dropWhile_append_of_pos h

theorem dropBlankEnd_append {after : List Char} (h : IsBlankText after) (s : List Char) :
    dropBlankEnd (s ++ after) = dropBlankEnd s := by
  have hback : IsBlankText after.reverse := fun c hc => h c (List.mem_reverse.mp hc)
  rw [dropBlankEnd, dropBlankEnd, List.reverse_append, List.dropWhile_append_of_pos hback]

/-- Trimming takes away whatever blank characters stand around a text. -/
theorem trim_append_append {before after : List Char} (hbefore : IsBlankText before)
    (hafter : IsBlankText after) (s : List Char) : trim (before ++ (s ++ after)) = trim s := by
  rw [trim, dropBlank_append hbefore]
  by_cases hs : IsBlankText s
  · -- nothing is left of either text
    have hblank : IsBlankText (s ++ after) := List.forall_mem_append.mpr ⟨hs, hafter⟩
    rw [trim, dropBlank, dropBlank, List.dropWhile_eq_nil_iff.mpr hblank,
      List.dropWhile_eq_nil_iff.mpr hs]
  · have hleft : (s.dropWhile isBlank).isEmpty = false := by
      rw [← Bool.not_eq_true, List.isEmpty_iff, List.dropWhile_eq_nil_iff]
      exact hs
    rw [trim, dropBlank, List.dropWhile_append, if_neg (by rw [hleft]; decide)]
    exact dropBlankEnd_append hafter _

/-- Only blank characters are dropped from the front. -/
theorem exists_blank_append_dropBlank (s : List Char) :
    ∃ before, IsBlankText before ∧ s = before ++ dropBlank s :=
  ⟨s.takeWhile isBlank, fun _ hc => List.mem_takeWhile_imp hc,
    List.takeWhile_append_dropWhile.symm⟩

/-- Only blank characters are trimmed. -/
theorem exists_blank_append_trim (s : List Char) :
    ∃ before after, IsBlankText before ∧ IsBlankText after ∧ s = before ++ (trim s ++ after) := by
  obtain ⟨before, hbefore, hs⟩ := exists_blank_append_dropBlank s
  obtain ⟨after, hafter, hback⟩ := exists_blank_append_dropBlank (dropBlank s).reverse
  have hend : dropBlank s = trim s ++ after.reverse := by
    rw [← List.reverse_inj, hback, trim, dropBlankEnd]
    simp [dropBlank]
  refine ⟨before, after.reverse, hbefore, fun c hc => hafter c (List.mem_reverse.mp hc), ?_⟩
  rw [← hend, ← hs]

/-- From the back the blank characters end at the last of the others. -/
theorem dropBlankEnd_append_cons {c : Char} (hc : isBlank c = false) (s after : List Char) :
    dropBlankEnd (s ++ c :: after) = s ++ c :: dropBlankEnd after := by
  rw [dropBlankEnd, dropBlankEnd]
  simp only [List.reverse_cons, List.reverse_append, List.append_assoc, List.dropWhile_append]
  split
  · next hempty => simp [List.isEmpty_iff.mp hempty, hc]
  · simp

/-- Trimming a text that starts with no blank character reaches back to the last of its others. -/
theorem trim_append_cons {s after : List Char} {c : Char}
    (hfirst : ∀ d ∈ s.head?, isBlank d = false) (hs : s ≠ []) (hc : isBlank c = false) :
    trim (s ++ c :: after) = s ++ c :: dropBlankEnd after := by
  obtain ⟨d, r, rfl⟩ := List.exists_cons_of_ne_nil hs
  have hd : isBlank d = false := hfirst d rfl
  rw [trim, dropBlank, List.cons_append, List.dropWhile_cons_of_neg (by simp [hd])]
  exact dropBlankEnd_append_cons hc (d :: r) after

theorem dropBlankEnd_of_trim {s : List Char} (h : trim s = s) : dropBlankEnd s = s := by
  -- what has been dropped from the back is not there a second time
  have htwice : dropBlankEnd (trim s) = trim s := by
    rw [trim, dropBlankEnd, dropBlankEnd, List.reverse_reverse, List.dropWhile_idempotent isBlank]
  rwa [h] at htwice

/-! ## Letters and digits -/

/-- The code points of blank characters, one by one. -/
def blankPoints : List Nat :=
  blankRanges.flatMap fun r => List.range' r.1 (r.2 + 1 - r.1)

theorem mem_blankPoints {c : Char} (h : isBlank c = true) : c.toNat ∈ blankPoints := by
  obtain ⟨r, hr, hin⟩ := List.any_eq_true.mp h
  rw [Bool.and_eq_true, decide_eq_true_eq, decide_eq_true_eq] at hin
  refine List.mem_flatMap.mpr ⟨r, hr, List.mem_range'_1.mpr ⟨hin.1, ?_⟩⟩
  omega

/-- No blank character is a letter or a digit. -/
theorem isBlank_of_isAlphanumeric {c : Char} (h : isAlphanumeric c = true) : isBlank c = false := by
  have hpoints : blankPoints.all (fun n => !isAlphanumeric (Char.ofNat n)) = true := by
    decide +kernel
  apply eq_false_of_ne_true
  intro hblank
  have hnot := List.all_eq_true.mp hpoints c.toNat (mem_blankPoints hblank)
  rw [Char.ofNat_toNat, h] at hnot
  cases hnot

/-- A name of letters, digits and underscores. -/
structure IsIdentifier (name : List Char) : Prop where
  nonempty : name ≠ []
  letters : ∀ c ∈ name, isAlphanumeric c = true ∨ c = '_'

namespace IsIdentifier

variable {name : List Char}

theorem iff_all :
    IsIdentifier name ↔ name ≠ [] ∧ (name.all fun c => isAlphanumeric c || c = '_') = true := by
  simp only [List.all_eq_true, Bool.or_eq_true, decide_eq_true_eq]
  constructor
  · intro h
    exact ⟨h.nonempty, h.letters⟩
  · rintro ⟨hnonempty, hletters⟩
    exact ⟨hnonempty, hletters⟩

instance : Decidable (IsIdentifier name) :=
  decidable_of_iff' _ iff_all

/-- A mark of a query does not occur in a name. -/
theorem not_mem (h : IsIdentifier name) {mark : Char} (hmark : isAlphanumeric mark = false)
    (hne : mark ≠ '_') : mark ∉ name := by
  intro hmem
  rcases h.letters mark hmem with hletter | heq
  · rw [hmark] at hletter
    cases hletter
  · exact hne heq

theorem dot_not_mem (h : IsIdentifier name) : '.' ∉ name :=
  h.not_mem rfl (by decide)

theorem parenthesis_not_mem (h : IsIdentifier name) : '(' ∉ name :=
  h.not_mem rfl (by decide)

theorem isBlank_eq_false (h : IsIdentifier name) {c : Char} (hc : c ∈ name) :
    isBlank c = false := by
  rcases h.letters c hc with hletter | rfl
  · exact isBlank_of_isAlphanumeric hletter
  · decide

theorem trim_eq (h : IsIdentifier name) : trim name = name :=
  trim_eq_of_forall fun _ hc => h.isBlank_eq_false hc

end IsIdentifier

end ShellQuery.Text
