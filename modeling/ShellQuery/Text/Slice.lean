import ShellQuery.Text.Bytes

/-!
# Slices of a text

A slice is the part of a text between two byte positions.  It exists only where the positions are
in order, neither lies beyond the end and neither lies inside a character; code that takes any
other slice stops at once.  `slice?` gives none there, and `isSome_slice?_iff` says where it does
not.
-/

namespace ShellQuery.Text

/-! ## Positions -/

/-- Whether a byte position of a text lies between two characters or at an end. -/
def IsBoundary (s : List Char) (i : Nat) : Prop :=
  ∃ front back, s = front ++ back ∧ byteLength front = i

/-- The position of the first character with a property. -/
def findByte? (p : Char → Bool) : List Char → Option Nat
  | [] => none
  | c :: r => if p c then some 0 else (findByte? p r).map (c.utf8Size + ·)

/-! ## Slices -/

/-- The part of a text up to a byte position, none when the position lies beyond the end or inside a
    character. -/
def takeBytes : Nat → List Char → Option (List Char)
  | 0, _ => some []
  | _ + 1, [] => none
  | n + 1, c :: r =>
    if c.utf8Size ≤ n + 1 then (takeBytes (n + 1 - c.utf8Size) r).map (c :: ·) else none

/-- The part of a text between two byte positions. -/
def slice? (s : List Char) (i j : Nat) : Option (List Char) :=
  if i ≤ j then (dropBytes i s).bind (takeBytes (j - i)) else none

/-- The part of a text from a byte position on. -/
def sliceFrom? (s : List Char) (i : Nat) : Option (List Char) :=
  slice? s i (byteLength s)

/-! ## Laws -/

section

variable {s t front back : List Char} {i j n : Nat}

theorem byteLength_nil : byteLength [] = 0 :=
  rfl

theorem byteLength_cons (c : Char) (r : List Char) :
    byteLength (c :: r) = c.utf8Size + byteLength r :=
  rfl

theorem byteLength_append_sub (front back : List Char) :
    byteLength (front ++ back) - byteLength back = byteLength front := by
  rw [byteLength_append, Nat.add_sub_cancel]

theorem eq_nil_of_byteLength (h : byteLength s = 0) : s = [] := by
  cases s with
  | nil => rfl
  | cons c r =>
    have hpos := c.utf8Size_pos
    rw [byteLength_cons] at h
    omega

theorem isBoundary_append (front back : List Char) :
    IsBoundary (front ++ back) (byteLength front) :=
  ⟨front, back, rfl, rfl⟩

theorem IsBoundary.le (h : IsBoundary s i) : i ≤ byteLength s := by
  obtain ⟨front, back, rfl, rfl⟩ := h
  rw [byteLength_append]
  exact Nat.le_add_right _ _

theorem dropBytes_eq_some_iff :
    dropBytes i s = some t ↔ ∃ front, s = front ++ t ∧ byteLength front = i := by
  constructor
  · intro h
    fun_induction dropBytes i s with
    | case1 s => cases h; exact ⟨[], rfl, rfl⟩
    | case2 => cases h
    | case3 n c r hfits ih =>
      obtain ⟨front, rfl, hfront⟩ := ih h
      exact ⟨c :: front, rfl, by rw [byteLength_cons, hfront]; omega⟩
    | case4 => cases h
  · rintro ⟨front, rfl, rfl⟩
    exact dropBytes_byteLength front t

theorem takeBytes_byteLength (t back : List Char) :
    takeBytes (byteLength t) (t ++ back) = some t := by
  induction t with
  | nil => simp [byteLength, takeBytes]
  | cons c r ih =>
    obtain ⟨n, hn⟩ : ∃ n, byteLength (c :: r) = n + 1 :=
      ⟨c.utf8Size + byteLength r - 1, by have hpos := c.utf8Size_pos; rw [byteLength_cons]; omega⟩
    have hfits : c.utf8Size ≤ n + 1 := by rw [← hn, byteLength_cons]; omega
    have hleft : n + 1 - c.utf8Size = byteLength r := by rw [← hn, byteLength_cons]; omega
    rw [hn, List.cons_append, takeBytes, if_pos hfits, hleft, ih, Option.map_some]

theorem takeBytes_eq_some_iff :
    takeBytes n s = some t ↔ ∃ back, s = t ++ back ∧ byteLength t = n := by
  constructor
  · intro h
    fun_induction takeBytes n s generalizing t with
    | case1 s => cases h; exact ⟨s, rfl, rfl⟩
    | case2 => cases h
    | case3 n c r hfits ih =>
      obtain ⟨t, ht, rfl⟩ := Option.map_eq_some_iff.mp h
      obtain ⟨back, rfl, hlength⟩ := ih ht
      exact ⟨back, rfl, by rw [byteLength_cons, hlength]; omega⟩
    | case4 => cases h
  · rintro ⟨back, rfl, rfl⟩
    exact takeBytes_byteLength t back

/-- A slice is the middle of three parts of the text. -/
theorem slice?_eq_some_iff :
    slice? s i j = some t ↔
      ∃ front back, s = front ++ (t ++ back) ∧ byteLength front = i ∧
        byteLength front + byteLength t = j := by
  constructor
  · intro h
    obtain ⟨hle, h⟩ := Option.ite_none_right_eq_some.mp h
    obtain ⟨rest, hrest, htake⟩ := Option.bind_eq_some_iff.mp h
    obtain ⟨front, rfl, hfront⟩ := dropBytes_eq_some_iff.mp hrest
    obtain ⟨back, rfl, ht⟩ := takeBytes_eq_some_iff.mp htake
    exact ⟨front, back, rfl, hfront, by omega⟩
  · rintro ⟨front, back, rfl, rfl, rfl⟩
    rw [slice?, if_pos (Nat.le_add_right _ _), dropBytes_byteLength, Option.bind_some,
      Nat.add_sub_cancel_left, takeBytes_byteLength]

/-- A slice exists exactly between two boundaries that are in order. -/
theorem isSome_slice?_iff :
    (slice? s i j).isSome = true ↔ i ≤ j ∧ IsBoundary s i ∧ IsBoundary s j := by
  rw [Option.isSome_iff_exists]
  constructor
  · rintro ⟨t, ht⟩
    obtain ⟨front, back, rfl, rfl, rfl⟩ := slice?_eq_some_iff.mp ht
    refine ⟨Nat.le_add_right _ _, ⟨front, t ++ back, rfl, rfl⟩, front ++ t, back, ?_, ?_⟩
    · rw [List.append_assoc]
    · rw [byteLength_append]
  · rintro ⟨hle, ⟨front, back, rfl, rfl⟩, front', back', hsplit, rfl⟩
    -- the longer of the two fronts starts with the shorter one
    obtain ⟨middle, rfl, rfl⟩ | ⟨middle, rfl, rfl⟩ := List.append_eq_append_iff.mp hsplit
    · exact ⟨middle, slice?_eq_some_iff.mpr ⟨front, back', rfl, rfl, by rw [byteLength_append]⟩⟩
    · have hempty : middle = [] := by
        rw [byteLength_append] at hle
        exact eq_nil_of_byteLength (by omega)
      subst hempty
      exact ⟨[], slice?_eq_some_iff.mpr ⟨front', back, by simp, by simp, rfl⟩⟩

/-- The part between two others is the slice between its ends. -/
theorem slice?_append (front t back : List Char) :
    slice? (front ++ (t ++ back)) (byteLength front) (byteLength front + byteLength t) = some t :=
  slice?_eq_some_iff.mpr ⟨front, back, rfl, rfl, rfl⟩

theorem slice?_zero_append (t back : List Char) : slice? (t ++ back) 0 (byteLength t) = some t :=
  slice?_eq_some_iff.mpr ⟨[], back, rfl, rfl, Nat.zero_add _⟩

theorem sliceFrom?_append (front t : List Char) :
    sliceFrom? (front ++ t) (byteLength front) = some t :=
  slice?_eq_some_iff.mpr ⟨front, [], by rw [List.append_nil], rfl, (byteLength_append _ _).symm⟩

/-! ## Searching -/

variable {p : Char → Bool} {c : Char}

/-- The first character with the property is found behind those without it. -/
theorem findByte?_append_cons (hfront : ∀ d ∈ front, p d = false) (hc : p c = true)
    (back : List Char) : findByte? p (front ++ c :: back) = some (byteLength front) := by
  induction front with
  | nil => rw [List.nil_append, findByte?, if_pos hc, byteLength_nil]
  | cons d r ih =>
    obtain ⟨hd, hr⟩ := List.forall_mem_cons.mp hfront
    rw [List.cons_append, findByte?, if_neg (by simp [hd]), ih hr, Option.map_some, byteLength_cons]

theorem findByte?_of_forall (h : ∀ d ∈ s, p d = false) : findByte? p s = none := by
  induction s with
  | nil => rfl
  | cons d r ih =>
    obtain ⟨hd, hr⟩ := List.forall_mem_cons.mp h
    rw [findByte?, if_neg (by simp [hd]), ih hr, Option.map_none]

end

end ShellQuery.Text
