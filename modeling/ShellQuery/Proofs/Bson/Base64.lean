import ShellQuery.Bson.Base64

/-!
# Bytes that are written and read as text

What `Base64.encode` writes, `Base64.decode` reads, and what is read are bytes.
-/

namespace ShellQuery.Base64

/-- All values of a sequence are bytes. -/
def AreBytes (bytes : List Nat) : Prop :=
  ∀ b ∈ bytes, b < 256

/-! ## The alphabet -/

theorem value?_digit : ∀ n < 64, value? (digit n) = some n := by
  decide

theorem digit_ne_equals : ∀ n < 64, digit n ≠ '=' := by
  decide

theorem value?_lt {c : Char} {n : Nat} (h : value? c = some n) : n < 64 := by
  have hletter : 'A'.toNat + 25 = 'Z'.toNat ∧ 'a'.toNat + 25 = 'z'.toNat ∧
      '0'.toNat + 9 = '9'.toNat := ⟨rfl, rfl, rfl⟩
  -- three ranges and two single characters
  unfold value? at h
  split at h
  · next hrange =>
    have hlast : c.toNat ≤ 'Z'.toNat := hrange.2
    cases h
    omega
  · split at h
    · next hrange =>
      have hlast : c.toNat ≤ 'z'.toNat := hrange.2
      cases h
      omega
    · split at h
      · next hrange =>
        have hlast : c.toNat ≤ '9'.toNat := hrange.2
        cases h
        omega
      · split at h
        · cases h
          decide
        · split at h
          · cases h
            decide
          · cases h

/-! ## Groups -/

/-- A group that does not end with `=` is full. -/
theorem decode_group {w x y z : Char} {rest : List Char} {bytes more : List Nat} (hz : z ≠ '=')
    (hgroup : fullGroup w x y z = some bytes) (hrest : decode rest = some more) :
    decode (w :: x :: y :: z :: rest) = some (bytes ++ more) := by
  rw [decode, hgroup, hrest]
  · exact fun _ heq => absurd heq hz
  · exact fun heq => absurd heq hz

theorem fullGroup_digits {a b c : Nat} (ha : a < 256) (hb : b < 256) (hc : c < 256) :
    fullGroup (digit (a / 4)) (digit (a % 4 * 16 + b / 16)) (digit (b % 16 * 4 + c / 64))
      (digit (c % 64)) = some [a, b, c] := by
  have hw := value?_digit (a / 4) (by omega)
  have hx := value?_digit (a % 4 * 16 + b / 16) (by omega)
  have hy := value?_digit (b % 16 * 4 + c / 64) (by omega)
  have hz := value?_digit (c % 64) (by omega)
  -- the four digits have six bits each, and together those of the three bytes
  simp only [fullGroup, hw, hx, hy, hz, bind, Option.bind, Option.some.injEq, List.cons.injEq,
    and_true]
  omega

theorem lastTwo_digits {a b : Nat} (ha : a < 256) (hb : b < 256) :
    lastTwo (digit (a / 4)) (digit (a % 4 * 16 + b / 16)) (digit (b % 16 * 4)) = some [a, b] := by
  have hw := value?_digit (a / 4) (by omega)
  have hx := value?_digit (a % 4 * 16 + b / 16) (by omega)
  have hy := value?_digit (b % 16 * 4) (by omega)
  have hrest : b % 16 * 4 % 4 = 0 := Nat.mul_mod_left _ _
  simp only [lastTwo, hw, hx, hy, hrest, bind, Option.bind, if_true, Option.some.injEq,
    List.cons.injEq, and_true]
  omega

theorem lastOne_digits {a : Nat} (ha : a < 256) :
    lastOne (digit (a / 4)) (digit (a % 4 * 16)) = some [a] := by
  have hw := value?_digit (a / 4) (by omega)
  have hx := value?_digit (a % 4 * 16) (by omega)
  have hrest : a % 4 * 16 % 16 = 0 := Nat.mul_mod_left _ _
  simp only [lastOne, hw, hx, hrest, bind, Option.bind, if_true, Option.some.injEq,
    List.cons.injEq, and_true]
  omega

/-! ## Main results -/

/-- Bytes are read back from their text. -/
theorem decode_encode {bytes : List Nat} (h : AreBytes bytes) :
    decode (encode bytes) = some bytes := by
  -- three bytes make up a group, and the last group may be shorter
  induction bytes using encode.induct with
  | case1 => rfl
  | case2 a =>
    have ha := h a List.mem_cons_self
    rw [encode, decode, lastOne_digits ha]
  | case3 a b =>
    have ha := h a List.mem_cons_self
    have hb := h b (by simp)
    -- two bytes have a third digit, which is not the mark that fills up the group
    rw [encode, decode, lastTwo_digits ha hb]
    exact fun heq => absurd heq (digit_ne_equals _ (by omega))
  | case4 a b c rest ih =>
    simp only [AreBytes, List.forall_mem_cons] at h
    obtain ⟨ha, hb, hc, hrest⟩ := h
    rw [encode]
    exact decode_group (digit_ne_equals _ (by omega)) (fullGroup_digits ha hb hc) (ih hrest)

theorem areBytes_of_fullGroup {w x y z : Char} {bytes : List Nat}
    (h : fullGroup w x y z = some bytes) : AreBytes bytes := by
  simp only [fullGroup, bind, Option.bind_eq_some_iff] at h
  obtain ⟨a, ha, b, hb, c, hc, d, hd, heq⟩ := h
  cases heq
  have ha := value?_lt ha
  have hb := value?_lt hb
  have hc := value?_lt hc
  have hd := value?_lt hd
  simp only [AreBytes, List.forall_mem_cons]
  exact ⟨by omega, by omega, by omega, nofun⟩

theorem areBytes_of_lastTwo {w x y : Char} {bytes : List Nat} (h : lastTwo w x y = some bytes) :
    AreBytes bytes := by
  simp only [lastTwo, bind, Option.bind_eq_some_iff] at h
  obtain ⟨a, ha, b, hb, c, hc, h⟩ := h
  split at h
  · cases h
    have ha := value?_lt ha
    have hb := value?_lt hb
    have hc := value?_lt hc
    simp only [AreBytes, List.forall_mem_cons]
    exact ⟨by omega, by omega, nofun⟩
  · cases h

theorem areBytes_of_lastOne {w x : Char} {bytes : List Nat} (h : lastOne w x = some bytes) :
    AreBytes bytes := by
  simp only [lastOne, bind, Option.bind_eq_some_iff] at h
  obtain ⟨a, ha, b, hb, h⟩ := h
  split at h
  · cases h
    have ha := value?_lt ha
    have hb := value?_lt hb
    simp only [AreBytes, List.forall_mem_cons]
    exact ⟨by omega, nofun⟩
  · cases h

/-- What a text is read as are bytes. -/
theorem areBytes_of_decode {s : List Char} {bytes : List Nat} (h : decode s = some bytes) :
    AreBytes bytes := by
  fun_induction decode s generalizing bytes with
  | case1 =>
    cases h
    exact nofun
  | case2 w x => exact areBytes_of_lastOne h
  | case3 w x y _ => exact areBytes_of_lastTwo h
  | case4 w x y z rest _ _ group more hmore hgroup ih =>
    cases h
    exact List.forall_mem_append.mpr ⟨areBytes_of_fullGroup hgroup, ih hmore⟩
  | case5 => cases h
  | case6 => cases h

end ShellQuery.Base64
