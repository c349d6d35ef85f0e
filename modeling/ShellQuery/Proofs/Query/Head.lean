import ShellQuery.Proofs.Query.Call
import ShellQuery.Proofs.Text.Names

/-!
# Names between dots

The head of a call is a root and names, each after a dot.  A name without dots and parentheses is
found between its dots again, trimmed; the root is dropped when its dot follows it at once.
-/

namespace ShellQuery.Query

/-! ## Names -/

/-- A text that can stand between the dots of a head. -/
structure IsHeadName (name : List Char) : Prop where
  dot : '.' ∉ name
  parenthesis : '(' ∉ name

instance (name : List Char) : Decidable (IsHeadName name) :=
  decidable_of_iff ('.' ∉ name ∧ '(' ∉ name) ⟨fun h => ⟨h.1, h.2⟩, fun h => ⟨h.dot, h.parenthesis⟩⟩

theorem IsHeadName.append {name other : List Char} (h : IsHeadName name)
    (hother : IsHeadName other) : IsHeadName (name ++ other) :=
  ⟨by simp [h.dot, hother.dot], by simp [h.parenthesis, hother.parenthesis]⟩

/-- Neither mark of a head is a blank character. -/
theorem isHeadName_of_blank {s : List Char} (h : Text.IsBlankText s) : IsHeadName s :=
  ⟨h.not_mem (by decide), h.not_mem (by decide)⟩

/-! ## Heads -/

/-- Names with a dot between each and the next. -/
def dotted (first : List Char) (rest : List (List Char)) : List Char :=
  first ++ rest.flatMap ('.' :: ·)

/-- The names of a head are found again, trimmed. -/
theorem headNames_dotted {first : List Char} {rest : List (List Char)}
    (hnames : ∀ name ∈ first :: rest, IsHeadName name) :
    headNames (dotted first rest) = (first :: rest).map Text.trim := by
  obtain ⟨hfirst, hrest⟩ := List.forall_mem_cons.mp hnames
  rw [headNames, dotted, Text.splitOn_append_flatMap hfirst.dot fun name h => (hrest name h).dot]

theorem parenthesis_not_mem_dotted {first : List Char} {rest : List (List Char)}
    (hnames : ∀ name ∈ first :: rest, IsHeadName name) : '(' ∉ dotted first rest := by
  obtain ⟨hfirst, hrest⟩ := List.forall_mem_cons.mp hnames
  rw [dotted, List.mem_append, not_or]
  refine ⟨hfirst.parenthesis, fun hmem => ?_⟩
  obtain ⟨name, hname, hin⟩ := List.mem_flatMap.mp hmem
  -- it would be the dot in front of a name or stand in the name
  obtain heq | hin := List.mem_cons.mp hin
  · cases heq
  · exact (hrest name hname).parenthesis hin

/-! ## The root -/

/-- The root of a call in all its spellings. -/
def roots : List (List Char) :=
  [['d', 'b'], ['d', 'B'], ['D', 'b'], ['D', 'B']]

variable {root : List Char}

theorem isHeadName_of_mem_roots : ∀ {root}, root ∈ roots → IsHeadName root := by
  decide

theorem ne_nil_of_mem_roots : ∀ {root}, root ∈ roots → root ≠ [] := by
  decide

theorem isBlank_of_mem_roots (h : root ∈ roots) : ∀ c ∈ root, Text.isBlank c = false := by
  have hroots : roots.all (fun root => root.all fun c => !Text.isBlank c) = true := by decide
  intro c hc
  have hletter := List.all_eq_true.mp (List.all_eq_true.mp hroots root h) c hc
  rwa [Bool.not_eq_true'] at hletter

/-- A root is two letters, and it is dropped together with the dot behind it only. -/
theorem eq_pair_of_mem_roots (h : root ∈ roots) :
    ∃ d b, root = [d, b] ∧ ∀ rest, dropRoot (d :: b :: '.' :: rest) = rest := by
  simp only [roots, List.mem_cons, List.not_mem_nil, or_false] at h
  obtain rfl | rfl | rfl | rfl := h <;> exact ⟨_, _, rfl, fun _ => rfl⟩

theorem dropRoot_dotted (h : root ∈ roots) (first : List Char) (rest : List (List Char))
    (behind : List Char) :
    dropRoot (dotted root (first :: rest) ++ behind) = dotted first rest ++ behind := by
  obtain ⟨d, b, rfl, hdrop⟩ := eq_pair_of_mem_roots h
  have htext : dotted [d, b] (first :: rest) ++ behind =
      d :: b :: '.' :: (dotted first rest ++ behind) := by simp [dotted]
  rw [htext, hdrop]

/-- Behind a blank character there is no dot that would belong to the root. -/
theorem dropRoot_dotted_of_blank (h : root ∈ roots) {gap : List Char} (hgap : Text.IsBlankText gap)
    (hne : gap ≠ []) (rest : List (List Char)) (behind : List Char) :
    dropRoot (dotted (root ++ gap) rest ++ behind) = dotted (root ++ gap) rest ++ behind := by
  obtain ⟨d, b, rfl, -⟩ := eq_pair_of_mem_roots h
  obtain ⟨c, r, rfl⟩ := List.exists_cons_of_ne_nil hne
  have hc : c ≠ '.' := by
    rintro rfl
    exact absurd (hgap '.' List.mem_cons_self) (by decide)
  -- the third character decides whether the root is dropped
  unfold dotted dropRoot
  split
  · next heq =>
    cases heq
    exact absurd rfl hc
  · rfl

/-- As a name the root is trimmed like any other. -/
theorem trim_append_of_mem_roots (h : root ∈ roots) {gap : List Char}
    (hgap : Text.IsBlankText gap) : Text.trim (root ++ gap) = root := by
  have hroot : Text.trim root = root := Text.trim_eq_of_forall (isBlank_of_mem_roots h)
  have htrim := @Text.trim_append_append [] gap nofun hgap root
  rwa [List.nil_append, hroot] at htrim

/-- A text that starts with a root is trimmed behind its parenthesis only. -/
theorem trim_dotted (h : root ∈ roots) (gap : List Char) (rest : List (List Char))
    (behind : List Char) :
    Text.trim (dotted (root ++ gap) rest ++ '(' :: behind) =
      dotted (root ++ gap) rest ++ '(' :: Text.dropBlankEnd behind := by
  have hblank := isBlank_of_mem_roots h
  obtain ⟨d, b, rfl, -⟩ := eq_pair_of_mem_roots h
  apply Text.trim_append_cons
  · rintro _ ⟨⟩
    exact hblank d List.mem_cons_self
  · exact List.cons_ne_nil _ _
  · decide

end ShellQuery.Query
