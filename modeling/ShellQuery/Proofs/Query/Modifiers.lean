import Mathlib.Logic.Relation
import ShellQuery.Proofs.Outcome
import ShellQuery.Proofs.Text.Digits
import ShellQuery.Query.Chain

/-!
# The first limit and the first skip

The modifiers of a cursor are gathered call by call, in two slots that are empty at first.  A slot
that has been filled stays as it is; so of the calls of its name only the first matters.

`Settles` says what a slot holds after some calls.  A call settles both slots (`add_eq_ok_iff`), and
what two parts of a chain settle goes together (`settles_or_iff`).  The main statements are
`ofCalls_eq_ok_iff` and, for calls that change places, `agreeOnFirst_of_swaps`.
-/

namespace ShellQuery.Modifiers

/-! ## First calls -/

/-- The argument of the first call of a name. -/
def firstArgument (name : String) (calls : List ChainedCall) : Option String :=
  (calls.find? (isNamed name)).map ChainedCall.argument

/-- The argument writes the limit, an integer of 64 bits. -/
def IsLimit (argument : String) (i : Int) : Prop :=
  Text.IsInteger argument.toList i ∧ -2 ^ 63 ≤ i ∧ i < 2 ^ 63

/-- The argument writes the number of results to skip, of 64 bits without a sign. -/
def IsSkip (argument : String) (n : Nat) : Prop :=
  Text.IsNatural argument.toList n ∧ n < 2 ^ 64

/-- Two chains have the same first limit and the same first skip. -/
structure AgreeOnFirst (calls calls' : List ChainedCall) : Prop where
  limit : firstArgument "limit" calls = firstArgument "limit" calls'
  skip : firstArgument "skip" calls = firstArgument "skip" calls'

/-- Two neighbours of a chain change places, which are not both limits and not both skips. -/
inductive Swaps : List ChainedCall → List ChainedCall → Prop where
  | swap {front back : List ChainedCall} {a b : ChainedCall}
      (h : ∀ name ∈ ["limit", "skip"], isNamed name a = true → isNamed name b = false) :
      Swaps (front ++ a :: b :: back) (front ++ b :: a :: back)

variable {m m' : Modifiers} {call : ChainedCall} {calls calls' : List ChainedCall}

/-- The calls of a name keep their order. -/
theorem Swaps.filter_eq (h : Swaps calls calls') {name : String}
    (hname : name ∈ ["limit", "skip"]) :
    calls.filter (isNamed name) = calls'.filter (isNamed name) := by
  cases h with
  | @swap front back a b h =>
    have hab := h name hname
    by_cases ha : isNamed name a = true
    · simp [ha, hab ha]
    · simp [List.filter_cons, ha]

theorem firstArgument_eq (name : String) (calls : List ChainedCall) :
    firstArgument name calls =
      (calls.filter (isNamed name)).head?.map ChainedCall.argument := by
  rw [List.head?_filter, firstArgument]

theorem Swaps.agreeOnFirst (h : Swaps calls calls') : AgreeOnFirst calls calls' := by
  constructor
  · rw [firstArgument_eq, h.filter_eq (by simp), firstArgument_eq]
  · rw [firstArgument_eq, h.filter_eq (by simp), firstArgument_eq]

/-- However often neighbours change places, the first limit and the first skip remain. -/
theorem agreeOnFirst_of_swaps (h : Relation.ReflTransGen Swaps calls calls') :
    AgreeOnFirst calls calls' := by
  induction h with
  | refl => exact ⟨rfl, rfl⟩
  | tail _ hswap ih =>
    exact ⟨ih.limit.trans hswap.agreeOnFirst.limit, ih.skip.trans hswap.agreeOnFirst.skip⟩

theorem firstArgument_cons (name : String) (call : ChainedCall) (rest : List ChainedCall) :
    firstArgument name (call :: rest) =
      (firstArgument name [call]).or (firstArgument name rest) := by
  simp only [firstArgument, List.find?_cons, List.find?_nil]
  split <;> simp

theorem firstArgument_singleton (name : String) (call : ChainedCall) :
    firstArgument name [call] = if isNamed name call then some call.argument else Option.none := by
  simp only [firstArgument, List.find?_cons, List.find?_nil]
  split <;> simp [*]

/-! ## Slots -/

/-- What a slot holds after some calls, of which the argument of the first of its name is given:
    what it held before, or else the number that this argument writes. -/
def Settles {α : Type} (Writes : String → α → Prop) :
    Option α → Option String → Option α → Prop
  | some n, _, after => after = some n
  | Option.none, first, after => Option.Rel Writes first after

section

variable {α : Type} {Writes : String → α → Prop} {held after : Option α}

/-- A full slot stays as it was. -/
theorem settles_full_iff {n : α} {first : Option String} :
    Settles Writes (some n) first after ↔ after = some n :=
  Iff.rfl

/-- Without a call the slot stays as it was. -/
theorem settles_none_iff : Settles Writes held Option.none after ↔ after = held := by
  cases held with
  | none => cases after <;> simp [Settles]
  | some n => exact settles_full_iff

/-- An empty slot is filled by a call. -/
theorem settles_some_iff {argument : String} :
    Settles Writes Option.none (some argument) after ↔ ∃ n, Writes argument n ∧ after = some n := by
  constructor
  · intro h
    cases h with
    | some hn => exact ⟨_, hn, rfl⟩
  · rintro ⟨n, hn, rfl⟩
    exact .some hn

/-- Of two parts of a chain the second counts only where the first has no call of the name. -/
theorem settles_or_iff {first second : Option String} :
    Settles Writes held (first.or second) after ↔
      ∃ mid, Settles Writes held first mid ∧ Settles Writes mid second after := by
  cases held with
  | some n => simp only [settles_full_iff, exists_eq_left]
  | none =>
    cases first with
    | none =>
      rw [Option.none_or]
      simp only [settles_none_iff, exists_eq_left]
    | some argument =>
      -- the slot is full behind the first part
      rw [Option.some_or, settles_some_iff]
      simp only [settles_some_iff]
      constructor
      · rintro ⟨n, hn, rfl⟩
        exact ⟨some n, ⟨n, hn, rfl⟩, rfl⟩
      · rintro ⟨_, ⟨n, hn, rfl⟩, hafter⟩
        exact ⟨n, hn, hafter⟩

end

/-! ## The chain -/

/-- No call is both a limit and a skip. -/
theorem isNamed_skip_of_limit (h : isNamed "limit" call = true) :
    isNamed "skip" call = false := by
  rw [isNamed, beq_iff_eq] at h
  rw [isNamed, h]
  decide

theorem isLimit_iff {argument : String} {i : Int} :
    IsLimit argument i ↔ Text.readSigned64 argument.toList = some i :=
  Text.readSigned64_eq_some_iff.symm

theorem isSkip_iff {argument : String} {n : Nat} :
    IsSkip argument n ↔ Text.readUnsigned64 argument.toList = some n :=
  Text.readUnsigned64_eq_some_iff.symm

/-- A call goes into the slot of its name, if it has one and the slot is empty. -/
theorem add_eq_ok_iff :
    add m call = .ok m' ↔
      Settles IsLimit m.limit (firstArgument "limit" [call]) m'.limit ∧
        Settles IsSkip m.skip (firstArgument "skip" [call]) m'.skip := by
  obtain ⟨limit, skip⟩ := m
  obtain ⟨limit', skip'⟩ := m'
  simp only [add, firstArgument_singleton]
  by_cases hlimit : isNamed "limit" call = true
  · have hskip : isNamed "skip" call = false := isNamed_skip_of_limit hlimit
    cases limit with
    | some n => simp [hlimit, hskip, settles_full_iff, settles_none_iff, eq_comm]
    | none =>
      cases hread : Text.readSigned64 call.argument.toList <;>
        simp [hlimit, hskip, settles_some_iff, settles_none_iff, isLimit_iff, hread, eq_comm]
  · rw [Bool.not_eq_true] at hlimit
    by_cases hskip : isNamed "skip" call = true
    · cases skip with
      | some n => simp [hlimit, hskip, settles_full_iff, settles_none_iff, eq_comm]
      | none =>
        cases hread : Text.readUnsigned64 call.argument.toList <;>
          simp [hlimit, hskip, settles_some_iff, settles_none_iff, isSkip_iff, hread, eq_comm]
    · simp [hlimit, hskip, settles_none_iff, eq_comm]

/-- The calls of a chain settle both slots.  The induction is on the chain, and the first call
    settles the slots for those behind it. -/
theorem foldlM_add_eq_ok_iff :
    calls.foldlM add m = .ok m' ↔
      Settles IsLimit m.limit (firstArgument "limit" calls) m'.limit ∧
        Settles IsSkip m.skip (firstArgument "skip" calls) m'.skip := by
  induction calls generalizing m with
  | nil =>
    obtain ⟨limit, skip⟩ := m
    obtain ⟨limit', skip'⟩ := m'
    simp [firstArgument, settles_none_iff, pure, Except.pure, eq_comm]
  | cons call rest ih =>
    rw [List.foldlM_cons, Outcome.bind_eq_ok_iff, firstArgument_cons "limit" call rest,
      firstArgument_cons "skip" call rest, settles_or_iff, settles_or_iff]
    simp only [add_eq_ok_iff, ih]
    constructor
    · rintro ⟨mid, ⟨hlimit, hskip⟩, hlimit', hskip'⟩
      exact ⟨⟨_, hlimit, hlimit'⟩, ⟨_, hskip, hskip'⟩⟩
    · rintro ⟨⟨limit, hlimit, hlimit'⟩, ⟨skip, hskip, hskip'⟩⟩
      exact ⟨⟨limit, skip⟩, ⟨hlimit, hskip⟩, hlimit', hskip'⟩

/-- The modifiers of a chain are the numbers that its first limit and its first skip write. -/
theorem ofCalls_eq_ok_iff :
    ofCalls calls = .ok m ↔
      Option.Rel IsLimit (firstArgument "limit" calls) m.limit ∧
        Option.Rel IsSkip (firstArgument "skip" calls) m.skip :=
  foldlM_add_eq_ok_iff

theorem ofTail_of_split {tail : List Char} (h : Chain.split tail = .ok calls) :
    ofTail tail = ofCalls calls := by
  rw [ofTail, h]
  rfl

/-- Chains that agree on their first limit and their first skip have the same modifiers. -/
theorem AgreeOnFirst.same_modifiers (h : AgreeOnFirst calls calls') :
    ofCalls calls = .ok m ↔ ofCalls calls' = .ok m := by
  rw [ofCalls_eq_ok_iff, ofCalls_eq_ok_iff, h.limit, h.skip]

end ShellQuery.Modifiers
