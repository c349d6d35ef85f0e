import ShellQuery.Connection.Sharing

/-!
# One construction between two resets

Whatever the order of calls, ends of constructions and resets, a call that finds a construction in
the slot starts nothing, so that between two resets at most one is started.  A call stays with the
construction that it has joined, and a construction keeps its first outcome; hence all calls between
two resets are answered alike, and a reset changes nothing for those that already wait.

* `Sharing.Consistent`: what every order of moves keeps.
* `Sharing.Joins`: what moves without a reset keep.
* `Sharing.AgreeOn`: what two runs keep of a call that waits in both.
-/

namespace ShellQuery

open ProviderMove (resets settings? isReset)

variable {σ ρ : Type}

/-! ## One call -/

namespace Waiter

/-- What a move makes of the call with the number `i`. -/
def moved (p : Provider ρ) (i : Nat) (w : Waiter ρ) : ProviderMove σ ρ → Waiter ρ
  | .receive j => if j = i then w.receive p else w
  | .call _ | .complete _ _ | .reset => w

variable {p q : Provider ρ} {i : Nat} {w : Waiter ρ} {m : ProviderMove σ ρ}

@[simp] theorem construction_moved : (w.moved p i m).construction = w.construction := by
  cases m with
  | receive j => simp only [moved]; split <;> rfl
  | call | complete | reset => rfl

/-- A call is answered with what is known of its construction. -/
theorem moved_congr (h : p.outcome? w.construction = q.outcome? w.construction) :
    w.moved p i m = w.moved q i m := by
  cases m with
  | receive j => simp only [moved, receive, h]
  | call | complete | reset => rfl

/-- An answer is one that was there before, or the outcome of the construction. -/
theorem answer_of_moved {r : ρ} (h : (w.moved p i m).answer = some r) :
    w.answer = some r ∨ p.outcome? w.construction = some r := by
  cases m with
  | receive j =>
    simp only [moved] at h
    split at h
    · exact (Option.or_eq_some_iff.mp h).imp_right And.right
    · exact .inl h
  | call | complete | reset => exact .inl h

end Waiter

namespace Sharing

variable {s t : Sharing σ ρ} {m : ProviderMove σ ρ} {moves : List (ProviderMove σ ρ)}

/-! ## Runs -/

/-- What each of the moves keeps holds behind their run. -/
theorem run_keeps {P : Sharing σ ρ → Prop} (hs : P s)
    (hstep : ∀ s : Sharing σ ρ, P s → ∀ m ∈ moves, P (s.step m)) : P (s.run moves) :=
  List.foldlRecOn moves step hs hstep

/-! ## Single moves -/

/-- A move starts a construction when it is a call that finds the slot empty. -/
theorem attempts_step (s : Sharing σ ρ) (m : ProviderMove σ ρ) :
    (s.step m).provider.attempts =
      s.provider.attempts + if m.settings?.isSome && s.provider.slot.isNone then 1 else 0 := by
  cases m with
  | call settings =>
    show s.provider.call.2.attempts = _
    cases hslot : s.provider.slot with
    | none => rw [Provider.call_of_empty hslot]; exact List.length_append
    | some k => rw [Provider.call_of_slot hslot]; rfl
  | complete k result => exact s.provider.attempts_complete k result
  | receive | reset => rfl

/-- A construction that has an outcome keeps it. -/
theorem outcome?_step {k : Nat} {r : ρ} (h : s.provider.outcome? k = some r)
    (m : ProviderMove σ ρ) : (s.step m).provider.outcome? k = some r := by
  cases m with
  | call settings => exact (s.provider.outcome?_call k).trans h
  | complete j result =>
    show (s.provider.complete j result).outcome? k = some r
    rw [Provider.outcome?_complete (Provider.lt_attempts_of_outcome? h), h, Option.some_or, ite_self]
  | receive | reset => exact h

/-- What has become of a call that was there before the move. -/
theorem waiters_step_of_some {i : Nat} {w : Waiter ρ} (h : s.waiters[i]? = some w)
    (m : ProviderMove σ ρ) : (s.step m).waiters[i]? = some (w.moved s.provider i m) := by
  cases m with
  | call settings =>
    have hi : i < s.waiters.length := (List.getElem?_eq_some_iff.mp h).1
    exact (List.getElem?_append_left hi).trans h
  | receive j =>
    show (s.waiters.modify j (Waiter.receive s.provider))[i]? = _
    rw [List.getElem?_modify, h, Waiter.moved]
    split <;> rfl
  | complete | reset => exact h

/-- A call that is there behind a move was there before, or the move has made it. -/
theorem waiters_step_cases {i : Nat} {w : Waiter ρ} (h : (s.step m).waiters[i]? = some w) :
    (∃ old, s.waiters[i]? = some old ∧ w = old.moved s.provider i m) ∨
      ∃ settings, m = .call settings ∧ w = ⟨s.provider.call.1, none⟩ := by
  cases hold : s.waiters[i]? with
  | some old =>
    rw [waiters_step_of_some hold] at h
    exact .inl ⟨old, rfl, (Option.some.inj h).symm⟩
  | none =>
    have hi : s.waiters.length ≤ i := List.getElem?_eq_none_iff.mp hold
    cases m with
    | call settings =>
      rw [step, List.getElem?_append_right hi, List.getElem?_singleton] at h
      split at h
      · exact .inr ⟨settings, rfl, (Option.some.inj h).symm⟩
      · cases h
    | receive j =>
      rw [step, List.getElem?_modify, hold] at h
      cases h
    | complete | reset => cases hold.symm.trans h

/-! ## What every order of moves keeps -/

/-- The construction in the slot has started, each construction was started from settings, each call
    waits for one that has started, and an answer is the outcome of that one. -/
structure Consistent (s : Sharing σ ρ) : Prop where
  slot : ∀ k, s.provider.slot = some k → k < s.provider.attempts
  sources : s.sources.length = s.provider.attempts
  joined : ∀ (i : Nat) (w : Waiter ρ), s.waiters[i]? = some w →
    w.construction < s.provider.attempts
  answers : ∀ (i : Nat) (w : Waiter ρ) (r : ρ), s.waiters[i]? = some w → w.answer = some r →
    s.provider.outcome? w.construction = some r

theorem consistent_start : (start : Sharing σ ρ).Consistent where
  slot _ h := by cases h
  sources := rfl
  joined _ _ h := by cases h
  answers _ _ _ h := by cases h

theorem Consistent.call_lt (h : s.Consistent) :
    s.provider.call.1 < s.provider.call.2.attempts := by
  cases hslot : s.provider.slot with
  | none =>
    rw [Provider.call_of_empty hslot, Provider.attempts, Provider.attempts, List.length_append]
    exact Nat.lt_succ_self _
  | some k => rw [Provider.call_of_slot hslot]; exact h.slot k hslot

theorem Consistent.step (h : s.Consistent) (m : ProviderMove σ ρ) : (s.step m).Consistent := by
  -- no move takes a construction back, so that what was a number of one still is
  have hgrow : s.provider.attempts ≤ (s.step m).provider.attempts := by
    rw [attempts_step]
    exact Nat.le_add_right ..
  refine ⟨?_, ?_, ?_, ?_⟩
  · intro k hslot
    cases m with
    | call settings =>
      obtain rfl := Option.some.inj ((Provider.slot_call _).symm.trans hslot)
      exact h.call_lt
    | complete j result =>
      exact Nat.lt_of_lt_of_le (h.slot k ((Provider.slot_complete ..).symm.trans hslot)) hgrow
    | receive => exact h.slot k hslot
    | reset => cases hslot
  · rw [attempts_step, ← h.sources]
    cases m with
    | call settings =>
      rw [Sharing.step, List.length_append]
      cases s.provider.slot <;> rfl
    | complete | receive | reset => rfl
  · intro i w hw
    rcases waiters_step_cases hw with ⟨old, hold, rfl⟩ | ⟨settings, rfl, rfl⟩
    · rw [Waiter.construction_moved]
      exact Nat.lt_of_lt_of_le (h.joined i old hold) hgrow
    · exact h.call_lt
  · intro i w r hw hr
    rcases waiters_step_cases hw with ⟨old, hold, rfl⟩ | ⟨settings, rfl, rfl⟩
    · rw [Waiter.construction_moved]
      apply outcome?_step
      rcases Waiter.answer_of_moved hr with hbefore | hnow
      · exact h.answers i old r hold hbefore
      · exact hnow
    · cases hr

theorem Consistent.run (h : s.Consistent) (moves : List (ProviderMove σ ρ)) :
    (s.run moves).Consistent :=
  run_keeps h fun _ hs m _ => hs.step m

/-- A call stays with its construction. -/
theorem construction_run {i : Nat} {w : Waiter ρ} (h : s.waiters[i]? = some w)
    (moves : List (ProviderMove σ ρ)) :
    ∃ w', (s.run moves).waiters[i]? = some w' ∧ w'.construction = w.construction := by
  refine run_keeps
    (P := fun s => ∃ w', s.waiters[i]? = some w' ∧ w'.construction = w.construction) ⟨w, h, rfl⟩ ?_
  rintro s ⟨w', hs, heq⟩ m -
  exact ⟨_, waiters_step_of_some hs m, Waiter.construction_moved.trans heq⟩

/-! ## Attempts -/

theorem attempts_run (s : Sharing σ ρ) (moves : List (ProviderMove σ ρ)) :
    (s.run moves).provider.attempts = s.provider.attempts + s.misses moves := by
  induction moves generalizing s with
  | nil => rfl
  | cons first rest ih =>
    show ((s.step first).run rest).provider.attempts = _
    rw [ih, attempts_step, misses, Nat.add_assoc]

/-- Between two calls that find the slot empty there is a reset. -/
theorem misses_le (s : Sharing σ ρ) (moves : List (ProviderMove σ ρ)) :
    s.misses moves ≤ resets moves + if s.provider.slot.isNone then 1 else 0 := by
  induction moves generalizing s with
  | nil => exact Nat.zero_le _
  | cons first rest ih =>
    have hrest := ih (s.step first)
    rw [misses, ProviderMove.resets_cons]
    cases first with
    | call settings =>
      -- the slot is filled behind the call
      simp only [slot_step_call, Option.isNone_some, Bool.false_eq_true, if_false] at hrest
      simp only [settings?, isReset, Option.isSome_some, Bool.true_and]
      omega
    | complete k result =>
      rw [slot_step_complete] at hrest
      simpa using hrest
    | receive i => simpa using hrest
    | reset =>
      simp only [slot_step_reset, Option.isNone_none, if_true] at hrest
      simp only [settings?, isReset, Option.isSome_none, Bool.false_and, Bool.false_eq_true,
        if_false, if_true]
      omega

/-! ## Moves without a reset -/

theorem call_fst (p : Provider ρ) : p.call.1 = p.slot.getD p.attempts := by
  cases h : p.slot with
  | none => rw [Provider.call_of_empty h]; rfl
  | some k => rw [Provider.call_of_slot h]; rfl

/-- A call would join the construction `k`, and all calls from the `n`-th on have joined it. -/
structure Joins (n k : Nat) (s : Sharing σ ρ) : Prop where
  next : s.provider.call.1 = k
  joined : ∀ (i : Nat) (w : Waiter ρ), n ≤ i → s.waiters[i]? = some w → w.construction = k

theorem joins_next (s : Sharing σ ρ) : s.Joins s.waiters.length s.provider.call.1 where
  next := rfl
  joined i w hi hw := by
    rw [List.getElem?_eq_none hi] at hw
    cases hw

theorem Joins.step {n k : Nat} (h : s.Joins n k) (hm : m.isReset = false) :
    (s.step m).Joins n k where
  next := by
    cases m with
    | call settings =>
      rw [Provider.call_of_slot (s.slot_step_call settings)]
      exact h.next
    | complete j result =>
      rw [← h.next, call_fst, call_fst, Sharing.step, Provider.slot_complete,
        Provider.attempts_complete]
    | receive i => exact h.next
    | reset => cases hm
  joined i w hi hw := by
    rcases waiters_step_cases hw with ⟨old, hold, rfl⟩ | ⟨settings, rfl, rfl⟩
    · rw [Waiter.construction_moved]
      exact h.joined i old hi hold
    · exact h.next

theorem not_isReset_of_mem (h : resets moves = 0) (hm : m ∈ moves) : m.isReset = false :=
  eq_false_of_ne_true (List.countP_eq_zero.mp h m hm)

/-- All calls of a run without a reset join the construction that the first of them joins. -/
theorem joins_run (s : Sharing σ ρ) (h : resets moves = 0) :
    (s.run moves).Joins s.waiters.length s.provider.call.1 :=
  run_keeps s.joins_next fun _ hs _ hm => hs.step (not_isReset_of_mem h hm)

/-- While nothing is reset, a filled slot stays as it is and nothing is started. -/
theorem filled_run {k : Nat} (hslot : s.provider.slot = some k) (h : resets moves = 0) :
    (s.run moves).provider.slot = some k ∧
      (s.run moves).provider.attempts = s.provider.attempts := by
  refine run_keeps (P := fun t => t.provider.slot = some k ∧
    t.provider.attempts = s.provider.attempts) ⟨hslot, rfl⟩ ?_
  rintro t ⟨hfilled, hattempts⟩ m hm
  have hreset := not_isReset_of_mem h hm
  refine ⟨?_, ?_⟩
  · cases m with
    | call settings =>
      show t.provider.call.2.slot = some k
      rw [Provider.call_of_slot hfilled]
      exact hfilled
    | complete j result => exact (Provider.slot_complete ..).trans hfilled
    | receive i => exact hfilled
    | reset => cases hreset
  · rw [attempts_step, hfilled, hattempts]
    simp

/-- Of all calls of a run without a reset, at most the first starts a construction. -/
theorem sources_run (s : Sharing σ ρ) (h : resets moves = 0) :
    (s.run moves).sources =
      s.sources ++ if s.provider.slot.isNone then (moves.filterMap settings?).take 1 else [] := by
  induction moves generalizing s with
  | nil => simp [run]
  | cons first rest ih =>
    rw [ProviderMove.resets_cons, Nat.add_eq_zero_iff] at h
    show ((s.step first).run rest).sources = _
    rw [ih _ h.1]
    cases first with
    | call settings =>
      -- behind the call the slot is filled
      simp [step]
    | complete k result =>
      rw [slot_step_complete]
      rfl
    | receive i => rfl
    | reset => cases h.2

/-! ## Runs that differ by a reset -/

/-- The call with the number `i` waits in both, and the same is known of its construction. -/
structure AgreeOn (i : Nat) (w : Waiter ρ) (s t : Sharing σ ρ) : Prop where
  left : s.waiters[i]? = some w
  right : t.waiters[i]? = some w
  started : w.construction < s.provider.attempts ∧ w.construction < t.provider.attempts
  known : s.provider.outcome? w.construction = t.provider.outcome? w.construction

theorem AgreeOn.step {i : Nat} {w : Waiter ρ} (h : AgreeOn i w s t) (m : ProviderMove σ ρ) :
    AgreeOn i (w.moved s.provider i m) (s.step m) (t.step m) where
  left := waiters_step_of_some h.left m
  right := by
    rw [Waiter.moved_congr h.known]
    exact waiters_step_of_some h.right m
  started := by
    rw [Waiter.construction_moved, attempts_step, attempts_step]
    exact ⟨Nat.lt_add_right _ h.started.1, Nat.lt_add_right _ h.started.2⟩
  known := by
    rw [Waiter.construction_moved]
    cases m with
    | call settings =>
      exact (Provider.outcome?_call ..).trans (h.known.trans (Provider.outcome?_call ..).symm)
    | complete j result =>
      show (s.provider.complete j result).outcome? _ = (t.provider.complete j result).outcome? _
      rw [Provider.outcome?_complete h.started.1, Provider.outcome?_complete h.started.2, h.known]
    | receive | reset => exact h.known

theorem AgreeOn.run {i : Nat} {w : Waiter ρ} (h : AgreeOn i w s t)
    (moves : List (ProviderMove σ ρ)) : ∃ w', AgreeOn i w' (s.run moves) (t.run moves) := by
  induction moves generalizing s t w with
  | nil => exact ⟨w, h⟩
  | cons first rest ih => exact ih (h.step first)

/-- A call that waits is not touched by a reset. -/
theorem Consistent.waiters_run_reset (h : s.Consistent) {i : Nat} (hi : i < s.waiters.length)
    (moves : List (ProviderMove σ ρ)) :
    ((s.step .reset).run moves).waiters[i]? = (s.run moves).waiters[i]? := by
  have hw : s.waiters[i]? = some s.waiters[i] := List.getElem?_eq_getElem hi
  have hstarted := h.joined i _ hw
  have hagree : AgreeOn i s.waiters[i] (s.step .reset) s := ⟨hw, hw, ⟨hstarted, hstarted⟩, rfl⟩
  obtain ⟨w, hrun⟩ := hagree.run moves
  exact hrun.left.trans hrun.right.symm

/-! ## Answers -/

/-- An answer is the outcome of the construction that the call has joined. -/
theorem Consistent.outcome?_of_answer? (h : s.Consistent) {i : Nat} {w : Waiter ρ} {r : ρ}
    (hw : s.waiters[i]? = some w) (hr : s.answer? i = some r) :
    s.provider.outcome? w.construction = some r := by
  rw [answer?, hw] at hr
  exact h.answers i w r hw hr

/-- A call that asks for its answer gets the outcome of its construction, once that is known. -/
theorem Consistent.answer?_step_receive (h : s.Consistent) {i : Nat} {w : Waiter ρ}
    (hw : s.waiters[i]? = some w) :
    (s.step (.receive i)).answer? i = s.provider.outcome? w.construction := by
  have hstep : (s.step (.receive i)).answer? i = w.answer.or (s.provider.outcome? w.construction) := by
    rw [answer?, waiters_step_of_some hw, Waiter.moved, if_pos rfl]
    rfl
  rw [hstep]
  cases hanswer : w.answer with
  | none => rw [Option.none_or]
  | some r => rw [Option.some_or, h.answers i w r hw hanswer]

/-- `Provider.connect` is a call, the end of its construction and its answer, with nothing else in
    between. -/
theorem Consistent.run_connect (h : s.Consistent) (settings : σ) (result : ρ) :
    ∃ u, s.run [.call settings, .complete s.provider.call.1 result, .receive s.waiters.length] = u ∧
      u.provider = (s.provider.connect result).2 ∧
      u.answer? s.waiters.length = some (s.provider.connect result).1 := by
  refine ⟨_, rfl, rfl, ?_⟩
  have hended := (h.step (.call settings)).step (.complete s.provider.call.1 result)
  have hcall : ((s.step (.call settings)).step (.complete s.provider.call.1 result)).waiters[
      s.waiters.length]? = some ⟨s.provider.call.1, none⟩ := List.getElem?_concat_length
  have hknown : ∃ r, (s.provider.call.2.complete s.provider.call.1 result).outcome?
      s.provider.call.1 = some r := by
    rw [Provider.outcome?_complete h.call_lt, if_pos rfl]
    cases s.provider.call.2.outcome? s.provider.call.1 with
    | none => exact ⟨result, rfl⟩
    | some r => exact ⟨r, rfl⟩
  obtain ⟨r, hr⟩ := hknown
  refine (hended.answer?_step_receive hcall).trans (hr.trans ?_)
  rw [Provider.connect]
  simp only [hr, Option.getD_some]

/-! ## Main result -/

/-- Calls, ends of constructions and resets may come in any order.  As many constructions have been
    started as calls have found the slot empty, which is at most one more than there were resets.  A
    call is answered with the outcome of the construction that is in the slot behind it, whatever
    comes later.  Until the next reset, of all calls only the first can start a construction, from
    its settings, and all these calls are answered alike.  With a construction in the slot, failed
    or not, nothing is started before a reset; and a reset changes no answer of the calls that have
    been made. -/
theorem one_construction_between_resets (before : List (ProviderMove σ ρ)) (s : Sharing σ ρ)
    (hs : start.run before = s) :
    (s.provider.attempts = start.misses before ∧ s.sources.length = s.provider.attempts ∧
      s.provider.attempts ≤ resets before + 1) ∧
    (∀ settings after u, (s.step (.call settings)).run after = u →
      ∃ k, (s.step (.call settings)).provider.slot = some k ∧
        (u.step (.receive s.waiters.length)).answer? s.waiters.length = u.provider.outcome? k ∧
        ∀ r, u.answer? s.waiters.length = some r → u.provider.outcome? k = some r) ∧
    (∀ during, resets during = 0 →
      (s.run during).sources = s.sources ++
        (if s.provider.slot.isNone then (during.filterMap settings?).take 1 else []) ∧
      ∀ later u i j, (s.run during).run later = u →
        s.waiters.length ≤ i → i < (s.run during).waiters.length →
        s.waiters.length ≤ j → j < (s.run during).waiters.length →
        ∀ r r', u.answer? i = some r → u.answer? j = some r' → r = r') ∧
    (∀ during k, resets during = 0 → s.provider.slot = some k →
      (s.run during).provider.slot = some k ∧
        (s.run during).provider.attempts = s.provider.attempts) ∧
    ∀ after i, i < s.waiters.length →
      ((s.step .reset).run after).answer? i = (s.run after).answer? i := by
  have hconsistent : s.Consistent := hs ▸ consistent_start.run before
  have hattempts : s.provider.attempts = start.misses before := by
    rw [← hs, attempts_run]
    exact Nat.zero_add _
  refine ⟨⟨hattempts, hconsistent.sources, ?_⟩, ?_, ?_, ?_, ?_⟩
  · rw [hattempts]
    exact misses_le start before
  · rintro settings after u rfl
    have hcall : (s.step (.call settings)).waiters[s.waiters.length]? =
        some ⟨s.provider.call.1, none⟩ := List.getElem?_concat_length
    obtain ⟨w, hw, hjoined⟩ := construction_run hcall after
    have hlater := (hconsistent.step (.call settings)).run after
    refine ⟨s.provider.call.1, s.slot_step_call settings, ?_, ?_⟩
    · rw [hlater.answer?_step_receive hw, hjoined]
    · intro r hr
      rw [← hlater.outcome?_of_answer? hw hr, hjoined]
  · intro during hduring
    refine ⟨sources_run s hduring, ?_⟩
    rintro later u i j rfl hi hi' hj hj' r r' hr hr'
    have hjoins := joins_run s hduring
    have hlater := (hconsistent.run during).run later
    -- both calls have joined the same construction
    obtain ⟨w, hw, hjoined⟩ := construction_run (List.getElem?_eq_getElem hi') later
    obtain ⟨w', hw', hjoined'⟩ := construction_run (List.getElem?_eq_getElem hj') later
    rw [hjoins.joined i _ hi (List.getElem?_eq_getElem hi')] at hjoined
    rw [hjoins.joined j _ hj (List.getElem?_eq_getElem hj')] at hjoined'
    have hsame := hlater.outcome?_of_answer? hw hr
    rw [hjoined, ← hjoined', hlater.outcome?_of_answer? hw' hr'] at hsame
    exact (Option.some.inj hsame).symm
  · exact fun during k hduring hslot => filled_run hslot hduring
  · intro after i hi
    rw [answer?, answer?, hconsistent.waiters_run_reset hi after]

/-- A call starts a construction, and a second one joins it. -/
def twoCalls : List (ProviderMove String (Except String Nat)) :=
  [.call "a", .call "b"]

/-- Behind a reset a third call starts a newer construction, which ends before the older one
    fails. -/
def lateFailure : List (ProviderMove String (Except String Nat)) :=
  [.reset, .call "c", .complete 1 (.ok 7), .complete 0 (.error "refused"), .receive 0, .receive 1,
    .receive 2]

/-- The two calls before the reset both get the late failure, and only the settings of the first
    are used; the call behind it has the newer outcome. -/
theorem one_construction_between_resets_late_failure :
    resets twoCalls = 0 ∧ (start.run twoCalls).sources = ["a"] ∧
      (∀ r r', ((start.run twoCalls).run lateFailure).answer? 0 = some r →
        ((start.run twoCalls).run lateFailure).answer? 1 = some r' → r = r') ∧
      ((start.run twoCalls).run lateFailure).waiters =
        [⟨0, some (.error "refused")⟩, ⟨0, some (.error "refused")⟩, ⟨1, some (.ok 7)⟩] := by
  obtain ⟨-, -, hduring, -, -⟩ := one_construction_between_resets [] _ rfl
  obtain ⟨hsources, halike⟩ := hduring twoCalls rfl
  exact ⟨rfl, hsources, halike lateFailure _ 0 1 rfl (by decide) (by decide) (by decide) (by decide),
    rfl⟩

end Sharing

end ShellQuery
