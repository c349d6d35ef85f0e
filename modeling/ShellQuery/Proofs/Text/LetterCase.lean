import Mathlib.Tactic.IntervalCases
import ShellQuery.Text.Bytes

/-!
# Letters of either case

Lower case changes the twenty-six letters from `A` to `Z` and nothing else, so that a fact about it
is checked letter by letter.  A character that is no small letter is the lower case of itself only
(`eq_of_toLower`), and a text in lower case has as many bytes as before (`byteLength_map_toLower`).
-/

namespace ShellQuery.Text

/-- Only the letters from `A` to `Z` have another lower case. -/
theorem toLower_eq_self_or_mem (c : Char) :
    c.toLower = c ∨ c ∈ "ABCDEFGHIJKLMNOPQRSTUVWXYZ".toList := by
  unfold Char.toLower
  split
  · next hrange =>
    right
    have hfirst : 65 ≤ c.toNat := hrange.1
    have hlast : c.toNat ≤ 90 := hrange.2
    -- the case stands for one of twenty-six numbers
    rw [← Char.ofNat_toNat c]
    generalize c.toNat = n at hfirst hlast
    interval_cases n <;> decide
  · exact .inl rfl

theorem utf8Size_toLower (c : Char) : c.toLower.utf8Size = c.utf8Size := by
  have hupper : "ABCDEFGHIJKLMNOPQRSTUVWXYZ".toList.all
      (fun d => d.toLower.utf8Size = d.utf8Size) = true := by decide
  obtain hself | hmem := toLower_eq_self_or_mem c
  · rw [hself]
  · exact of_decide_eq_true (List.all_eq_true.mp hupper c hmem)

/-- A character that no capital letter has as its lower case. -/
theorem eq_of_toLower {c d : Char}
    (hd : "ABCDEFGHIJKLMNOPQRSTUVWXYZ".toList.all (fun e => e.toLower ≠ d) = true)
    (h : c.toLower = d) : c = d := by
  obtain hself | hmem := toLower_eq_self_or_mem c
  · rw [← hself, h]
  · exact absurd h (of_decide_eq_true (List.all_eq_true.mp hd c hmem))

theorem byteLength_map_toLower (s : List Char) :
    byteLength (s.map Char.toLower) = byteLength s := by
  induction s with
  | nil => rfl
  | cons c r ih => rw [List.map_cons, byteLength, byteLength, utf8Size_toLower, ih]

end ShellQuery.Text
