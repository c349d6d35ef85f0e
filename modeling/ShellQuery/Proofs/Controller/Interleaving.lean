import ShellQuery.Controller.Interleaving

/-!
# Transactions under overlapping calls

However calls overlap, the session is asked to start a transaction only when it has none, and to end
one only when it has one.  The flag can be behind while a call has the lock, and it can be wrong
once the session has been given back; the invariant says what is known at each stage of a call.

* `SessionCall.Advances`: the moves of one call, case by case.
* `Interleaving.Coherent`: what every order of moves keeps.
* `Interleaving.Alone`: a call that no other overlaps, against the call as a whole.
-/

namespace ShellQuery

namespace TransactionState

/-- The flag tells whether the transaction of the session is active. -/
def Agrees (s : TransactionState) : Prop :=
  ∀ active, s.session = some active → s.flag = active

theorem agrees_fresh : fresh.Agrees := by
  intro active hactive
  exact Option.some.inj hactive

theorem agrees_of_no_session {s : TransactionState} (h : s.session = none) : s.Agrees := by
  intro active hactive
  rw [h] at hactive
  cases hactive

/-- A step that touches a session with a flag that agrees meets a session for which it is right. -/
theorem Agrees.session_of_touches {s : TransactionState} {step : TransactionStep} (h : s.Agrees)
    (htouches : s.touches step = true) : s.session = some s.flag ∧ allows s.flag step = true := by
  rw [touches, Bool.and_eq_true, Option.isSome_iff_exists] at htouches
  obtain ⟨⟨active, hactive⟩, hallows⟩ := htouches
  rw [h active hactive] at hallows ⊢
  exact ⟨hactive, hallows⟩

end TransactionState

open TransactionState (allows activeAfter)

/-! ## Stages -/

namespace Stage

/-- The call has the lock. -/
@[simp] def hasLock : Stage → Bool
  | .checking | .asking | .storing _ _ => true
  | .entered | .waiting | .releasing | .lowering | .returned _ => false

/-- What is known when a call stands at a stage.  The flag agrees where a call has just taken the
    lock, and may be behind where one has asked the session and has not stored the outcome. -/
def Holds (call : SessionCall) (m : SharedSession) : Stage → Prop
  | .entered | .waiting | .releasing => True
  | .checking => m.locked = true ∧ m.state.Agrees
  | .asking => m.locked = true ∧ m.state.session = some m.state.flag ∧
      allows m.state.flag call.step = true
  | .storing accepted _ => m.locked = true ∧ m.state.session = some (activeAfter accepted call.step)
  | .lowering => m.state.session = none
  | .returned _ => call = .close → m.state = ⟨none, false⟩

variable {call : SessionCall} {m : SharedSession} {p : Stage}

theorem Holds.locked (h : p.Holds call m) (hlock : p.hasLock = true) : m.locked = true := by
  cases p with
  | checking | asking | storing => exact h.1
  | entered | waiting | releasing | lowering | returned => cases hlock

end Stage

namespace SessionCall

/-! ## Moves of one call -/

/-- The moves of one call: what it needs, and what it leaves behind. -/
inductive Advances (call : SessionCall) (accepted : Bool) (m : SharedSession) :
    Stage → Moved → Prop where
  | look (hallows : allows m.state.flag call.step = true) :
      Advances call accepted m .entered ⟨.waiting, m, some .looked⟩
  | pass (hallows : allows m.state.flag call.step = false) :
      Advances call accepted m .entered ⟨call.resume (.ok ()), m, some .looked⟩
  | acquire (hlocked : m.locked = false) :
      Advances call accepted m .waiting ⟨.checking, { m with locked := true }, none⟩
  | proceed (htouches : m.state.touches call.step = true) :
      Advances call accepted m .checking ⟨.asking, m, none⟩
  | leave (htouches : m.state.touches call.step = false) :
      Advances call accepted m .checking ⟨call.resume (.ok ()), { m with locked := false }, none⟩
  | ask :
      Advances call accepted m .asking
        ⟨.storing accepted (m.state.lockedResult accepted call.step),
          { m with state := m.state.ask accepted call.step },
          some (.asked call.step m.state.session)⟩
  | store (asked : Bool) (answer : Except Error Unit) :
      Advances call accepted m (.storing asked answer)
        ⟨call.resume answer, ⟨m.state.store asked call.step, false⟩,
          some (.stored (activeAfter asked call.step))⟩
  | release (hlocked : m.locked = false) :
      Advances call accepted m .releasing
        ⟨.lowering, { m with state := m.state.release }, some (.released m.state.session)⟩
  | lower :
      Advances call accepted m .lowering
        ⟨.returned (.ok ()), { m with state := m.state.lower }, none⟩

variable {call other : SessionCall} {accepted : Bool} {m : SharedSession} {p q : Stage}
  {moved : Moved}

theorem advances_of_advance (h : call.advance accepted m p = some moved) :
    call.Advances accepted m p moved := by
  cases p with
  | entered =>
    rw [advance] at h
    split at h <;> cases h
    · exact .look ‹_›
    · exact .pass (eq_false_of_ne_true ‹_›)
  | waiting =>
    rw [advance] at h
    split at h <;> cases h
    exact .acquire (eq_false_of_ne_true ‹_›)
  | checking =>
    rw [advance] at h
    split at h <;> cases h
    · exact .proceed ‹_›
    · exact .leave (eq_false_of_ne_true ‹_›)
  | asking => cases h; exact .ask
  | storing asked answer => cases h; exact .store asked answer
  | releasing =>
    rw [advance] at h
    split at h <;> cases h
    exact .release (eq_false_of_ne_true ‹_›)
  | lowering => cases h; exact .lower
  | returned answer => cases h

@[simp] theorem hasLock_resume (call : SessionCall) (answer : Except Error Unit) :
    (call.resume answer).hasLock = false := by
  cases call <;> rfl

theorem holds_resume (call : SessionCall) (answer : Except Error Unit) (m : SharedSession) :
    (call.resume answer).Holds call m := by
  cases call with
  | transact step => intro hclose; cases hclose
  | close => trivial

namespace Advances

/-! ### What a call knows where it has come to -/

theorem holds (h : call.Advances accepted m p moved) (hagrees : m.locked = false → m.state.Agrees)
    (hp : p.Holds call m) : moved.stage.Holds call moved.shared := by
  cases h with
  | look hallows => trivial
  | pass hallows => exact holds_resume ..
  | acquire hlocked => exact ⟨rfl, hagrees hlocked⟩
  | proceed htouches => exact ⟨hp.1, hp.2.session_of_touches htouches⟩
  | leave htouches => exact holds_resume ..
  | ask => exact ⟨hp.1, rfl⟩
  | store asked answer => exact holds_resume ..
  | release hlocked => exact rfl
  | lower =>
    intro _
    have hsession : m.state.session = none := hp
    exact congrArg (TransactionState.mk · false) hsession

/-- Whoever lets go of the lock leaves a flag that agrees. -/
theorem agrees (h : call.Advances accepted m p moved) (hagrees : m.locked = false → m.state.Agrees)
    (hp : p.Holds call m) (hlocked : moved.shared.locked = false) : moved.shared.state.Agrees := by
  cases h with
  | look | pass => exact hagrees hlocked
  | acquire => cases hlocked
  | proceed | ask => exact absurd hlocked (by simp [hp.1])
  | leave htouches => exact hp.2
  | store asked answer =>
    intro active hactive
    have hsession : m.state.session = some (activeAfter asked call.step) := hp.2
    exact Option.some.inj (hsession.symm.trans hactive)
  | release => exact TransactionState.agrees_of_no_session rfl
  | lower => exact TransactionState.agrees_of_no_session hp

theorem hasLock (h : call.Advances accepted m p moved) (hlock : moved.stage.hasLock = true) :
    p.hasLock = true ∨ m.locked = false := by
  cases h with
  | acquire hlocked => exact .inr hlocked
  | proceed | ask => exact .inl rfl
  | look | release | lower => cases hlock
  | pass | leave | store => rw [hasLock_resume] at hlock; cases hlock

/-- A session is asked only for what is right for it. -/
theorem allows_of_asked {step : TransactionStep} {session : Option Bool}
    (h : call.Advances accepted m p moved) (hp : p.Holds call m)
    (hevent : moved.event = some (.asked step session)) :
    ∃ active, session = some active ∧ allows active step = true := by
  cases h with
  | ask => cases hevent; exact ⟨m.state.flag, hp.2⟩
  | look | pass | acquire | proceed | leave | store | release | lower => cases hevent

/-! ### What others know -/

/-- While another call has the lock, a call can only look at the flag, or lower it. -/
theorem shared_of_locked (h : call.Advances accepted m p moved) (hp : p.hasLock = false)
    (hlocked : m.locked = true) :
    moved.shared = m ∨ p = .lowering ∧ moved.shared = { m with state := m.state.lower } := by
  cases h with
  | look | pass => exact .inl rfl
  | lower => exact .inr ⟨rfl, rfl⟩
  | acquire hfree | release hfree => rw [hlocked] at hfree; cases hfree
  | proceed | leave | ask | store => cases hp

/-- A session that has been given back does not come back. -/
theorem session_eq_none (h : call.Advances accepted m p moved) (hp : p.Holds call m)
    (hnone : m.state.session = none) : moved.shared.state.session = none := by
  cases h with
  | look | pass | acquire | proceed | leave | store | lower => exact hnone
  | ask => rw [hp.2.1] at hnone; cases hnone
  | release => rfl

theorem state_of_closed (h : call.Advances accepted m p moved) (hp : p.Holds call m)
    (hclosed : m.state = ⟨none, false⟩) : moved.shared.state = ⟨none, false⟩ := by
  cases h with
  | look | pass | acquire | proceed | leave => exact hclosed
  | ask =>
    have hsession : m.state.session = some m.state.flag := hp.2.1
    rw [hclosed] at hsession
    cases hsession
  | store asked answer =>
    have hsession : m.state.session = some (activeAfter asked call.step) := hp.2
    rw [hclosed] at hsession
    cases hsession
  | release | lower => simp only [hclosed]; rfl

/-- A move of one call leaves what the others know as it is, since not both have the lock. -/
theorem holds_other (h : call.Advances accepted m p moved) (hp : p.Holds call m)
    (hq : q.Holds other m) (halone : q.hasLock = true → p.hasLock = false) :
    q.Holds other moved.shared := by
  cases q with
  | entered | waiting | releasing => trivial
  | lowering => exact h.session_eq_none hp hq
  | returned answer => exact fun hclose => h.state_of_closed hp (hq hclose)
  -- where the other call has the lock, the flag may be lowered, but only without a session
  | checking =>
    rcases h.shared_of_locked (halone rfl) hq.1 with hsame | ⟨rfl, hlower⟩
    · rw [hsame]
      exact hq
    · rw [hlower]
      exact ⟨hq.1, TransactionState.agrees_of_no_session hp⟩
  | asking =>
    rcases h.shared_of_locked (halone rfl) hq.1 with hsame | ⟨rfl, -⟩
    · rw [hsame]
      exact hq
    · exact absurd (hq.2.1.symm.trans hp) (Option.some_ne_none _)
  | storing asked answer =>
    rcases h.shared_of_locked (halone rfl) hq.1 with hsame | ⟨rfl, -⟩
    · rw [hsame]
      exact hq
    · exact absurd (hq.2.symm.trans hp) (Option.some_ne_none _)

end Advances

end SessionCall

namespace Interleaving

/-! ## Moves of all calls -/

variable {s s' : Interleaving} {m : Move} {moves : List Move}

/-- What a move does: a call is added, or one of them advances. -/
theorem move_cases (h : s.move m = some s') :
    (∃ call, s' = { s with callers := s.callers ++ [⟨call, .entered⟩] }) ∨
    ∃ i accepted call stage moved, s.callers[i]? = some ⟨call, stage⟩ ∧
      call.Advances accepted s.shared stage moved ∧ s' = s.update i call moved := by
  cases m with
  | enter call => exact .inl ⟨call, (Option.some.inj h).symm⟩
  | advance i accepted =>
    simp only [move, Option.bind_eq_bind, Option.bind_eq_some_iff, Option.some.injEq] at h
    obtain ⟨⟨call, stage⟩, hcaller, moved, hmoved, rfl⟩ := h
    exact .inr ⟨i, accepted, call, stage, moved, hcaller,
      SessionCall.advances_of_advance hmoved, rfl⟩

/-- What every move keeps holds behind every run. -/
theorem run_preserves {P : Interleaving → Prop}
    (hmove : ∀ {s s' : Interleaving} {m : Move}, P s → s.move m = some s' → P s')
    (hs : P s) (h : s.run moves = some s') : P s' := by
  induction moves generalizing s with
  | nil => cases h; exact hs
  | cons first rest ih =>
    obtain ⟨next, hfirst, hrest⟩ := Option.bind_eq_some_iff.mp h
    exact ih (hmove hs hfirst) hrest

theorem callers_enter {call : SessionCall} {j : Nat} {caller : Caller}
    (h : (s.callers ++ [⟨call, .entered⟩])[j]? = some caller) :
    s.callers[j]? = some caller ∨ caller = ⟨call, .entered⟩ := by
  rw [List.getElem?_append] at h
  split at h
  · exact .inl h
  · rw [List.getElem?_singleton] at h
    split at h
    · exact .inr (Option.some.inj h).symm
    · cases h

theorem callers_update {call : SessionCall} {moved : Moved} {i j : Nat} {caller : Caller}
    (h : (s.update i call moved).callers[j]? = some caller) :
    i = j ∧ caller = ⟨call, moved.stage⟩ ∨ i ≠ j ∧ s.callers[j]? = some caller := by
  rw [update, List.getElem?_set] at h
  split at h
  · next hij =>
    split at h
    · exact .inl ⟨hij, (Option.some.inj h).symm⟩
    · cases h
  · next hij => exact .inr ⟨hij, h⟩

theorem mem_log_update {call : SessionCall} {moved : Moved} {i : Nat} {entry : Nat × SessionEvent} :
    entry ∈ (s.update i call moved).log ↔
      entry.1 = i ∧ moved.event = some entry.2 ∨ entry ∈ s.log := by
  obtain ⟨j, event⟩ := entry
  cases hevent : moved.event <;> simp [update, hevent, eq_comm]

/-! ## The invariant -/

/-- What every order of moves keeps: the flag agrees when nobody has the lock, at most one call has
    it, all calls know what holds where they stand, and the session was asked only for what was
    right for it. -/
structure Coherent (s : Interleaving) : Prop where
  agrees : s.shared.locked = false → s.shared.state.Agrees
  holds : ∀ (i : Nat) (call : SessionCall) (stage : Stage), s.callers[i]? = some ⟨call, stage⟩ →
    stage.Holds call s.shared
  alone : ∀ (i j : Nat) (caller caller' : Caller), s.callers[i]? = some caller →
    s.callers[j]? = some caller' → caller.stage.hasLock = true → caller'.stage.hasLock = true →
    i = j
  fits : ∀ (i : Nat) (step : TransactionStep) (session : Option Bool),
    (i, .asked step session) ∈ s.log → ∃ active, session = some active ∧ allows active step = true

theorem coherent_start {state : TransactionState} (h : state.Agrees) : (start state).Coherent where
  agrees _ := h
  holds _ _ _ hcaller := by cases hcaller
  alone _ _ _ _ hcaller := by cases hcaller
  fits _ _ _ hmem := by cases hmem

theorem Coherent.enter (h : s.Coherent) (call : SessionCall) :
    Coherent { s with callers := s.callers ++ [⟨call, .entered⟩] } where
  agrees := h.agrees
  fits := h.fits
  holds i other stage hcaller := by
    rcases callers_enter hcaller with hold | hnew
    · exact h.holds i other stage hold
    · cases hnew
      trivial
  alone i j caller caller' hi hj hlock hlock' := by
    rcases callers_enter hi with hi | rfl
    · rcases callers_enter hj with hj | rfl
      · exact h.alone i j caller caller' hi hj hlock hlock'
      · cases hlock'
    · cases hlock

section

variable {i j : Nat} {accepted : Bool} {call : SessionCall} {stage : Stage} {moved : Moved}
  {caller : Caller}

/-- While another call has the lock, a call does not have it. -/
theorem Coherent.hasLock_eq_false (h : s.Coherent) (hcaller : s.callers[i]? = some ⟨call, stage⟩)
    (hij : i ≠ j) (hj : s.callers[j]? = some caller) (hlock : caller.stage.hasLock = true) :
    stage.hasLock = false := by
  apply eq_false_of_ne_true
  intro hhad
  exact hij (h.alone i j _ caller hcaller hj hhad hlock)

/-- While another call has the lock, a call does not come to it. -/
theorem Coherent.moved_hasLock_eq_false (h : s.Coherent)
    (hcaller : s.callers[i]? = some ⟨call, stage⟩)
    (hmoved : call.Advances accepted s.shared stage moved)
    (hij : i ≠ j) (hj : s.callers[j]? = some caller) (hlock : caller.stage.hasLock = true) :
    moved.stage.hasLock = false := by
  apply eq_false_of_ne_true
  intro hlock'
  rcases hmoved.hasLock hlock' with hhad | hfree
  · rw [h.hasLock_eq_false hcaller hij hj hlock] at hhad
    cases hhad
  · rw [(h.holds j caller.call caller.stage hj).locked hlock] at hfree
    cases hfree

theorem Coherent.update (h : s.Coherent) (hcaller : s.callers[i]? = some ⟨call, stage⟩)
    (hmoved : call.Advances accepted s.shared stage moved) : (s.update i call moved).Coherent := by
  have hstage : stage.Holds call s.shared := h.holds i call stage hcaller
  refine ⟨hmoved.agrees h.agrees hstage, ?_, ?_, ?_⟩
  · intro j other q hj
    rcases callers_update hj with ⟨rfl, hnew⟩ | ⟨hij, hj⟩
    · cases hnew
      exact hmoved.holds h.agrees hstage
    · apply hmoved.holds_other hstage (h.holds j other q hj)
      exact h.hasLock_eq_false hcaller hij hj
  · -- of two calls with the lock, at most one has just moved
    intro j k caller caller' hj hk hlock hlock'
    rcases callers_update hj with ⟨rfl, rfl⟩ | ⟨hij, hj⟩
    · rcases callers_update hk with ⟨hjk, -⟩ | ⟨hjk, hk⟩
      · exact hjk
      · rw [h.moved_hasLock_eq_false hcaller hmoved hjk hk hlock'] at hlock
        cases hlock
    · rcases callers_update hk with ⟨rfl, rfl⟩ | ⟨-, hk⟩
      · rw [h.moved_hasLock_eq_false hcaller hmoved hij hj hlock] at hlock'
        cases hlock'
      · exact h.alone j k caller caller' hj hk hlock hlock'
  · intro j step session hmem
    rcases mem_log_update.mp hmem with ⟨-, hevent⟩ | hmem
    · exact hmoved.allows_of_asked hstage hevent
    · exact h.fits j step session hmem

end

theorem Coherent.move (h : s.Coherent) (hmove : s.move m = some s') : s'.Coherent := by
  rcases move_cases hmove with ⟨call, rfl⟩ | ⟨i, accepted, call, stage, moved, hcaller, hmoved, rfl⟩
  · exact h.enter call
  · exact h.update hcaller hmoved

theorem coherent_run {state : TransactionState} (hstate : state.Agrees)
    (h : (start state).run moves = some s) : s.Coherent :=
  run_preserves Coherent.move (coherent_start hstate) h

/-- With the session given back and the flag down, no move changes anything. -/
theorem Coherent.move_of_closed (h : s.Coherent) (hclosed : s.shared.state = ⟨none, false⟩)
    (hmove : s.move m = some s') : s'.shared.state = ⟨none, false⟩ := by
  rcases move_cases hmove with ⟨call, rfl⟩ | ⟨i, accepted, call, stage, moved, hcaller, hmoved, rfl⟩
  · exact hclosed
  · exact hmoved.state_of_closed (h.holds i call stage hcaller) hclosed

theorem Coherent.run_of_closed (h : s.Coherent) (hclosed : s.shared.state = ⟨none, false⟩)
    (hrun : s.run moves = some s') : s'.shared.state = ⟨none, false⟩ := by
  have hboth : s'.Coherent ∧ s'.shared.state = ⟨none, false⟩ :=
    run_preserves (P := fun s => s.Coherent ∧ s.shared.state = ⟨none, false⟩)
      (fun hs hmove => ⟨hs.1.move hmove, hs.1.move_of_closed hs.2 hmove⟩) ⟨h, hclosed⟩ hrun
  exact hboth.2

/-! ## Main result -/

/-- Calls may overlap in any order, from any state in which the flag agrees.  The session is asked
    to start only without an active transaction, and to commit or abort only with one.  While nobody
    has the lock, the flag tells whether the transaction of the session is active.  Once a close has
    returned the flag is down, and no further move raises it. -/
theorem overlapping_calls_fit_session (state : TransactionState) (hstate : state.Agrees)
    (moves : List Move) (s : Interleaving) (hrun : (start state).run moves = some s) :
    (∀ i session, (i, .asked .start session) ∈ s.log → session = some false) ∧
    (∀ i session, (i, .asked .commit session) ∈ s.log → session = some true) ∧
    (∀ i session, (i, .asked .abort session) ∈ s.log → session = some true) ∧
    (s.shared.locked = false → ∀ active, s.shared.state.session = some active →
      s.shared.state.flag = active) ∧
    (∀ (i : Nat) answer, s.callers[i]? = some ⟨.close, .returned answer⟩ →
      ∀ more s', s.run more = some s' → s'.shared.state.flag = false) := by
  have hcoherent := coherent_run hstate hrun
  refine ⟨?_, ?_, ?_, hcoherent.agrees, ?_⟩
  · intro i session hmem
    obtain ⟨active, rfl, hallows⟩ := hcoherent.fits i .start session hmem
    exact congrArg some (Bool.not_eq_eq_eq_not.mp hallows)
  · intro i session hmem
    obtain ⟨active, rfl, hallows⟩ := hcoherent.fits i .commit session hmem
    exact congrArg some hallows
  · intro i session hmem
    obtain ⟨active, rfl, hallows⟩ := hcoherent.fits i .abort session hmem
    exact congrArg some hallows
  · -- where a close has returned there is nothing left to change
    intro i answer hreturned more s' hmore
    have hclosed := hcoherent.holds i .close _ hreturned rfl
    rw [hcoherent.run_of_closed hclosed hmore]

/-- Two starts look at the flag before either takes the lock, then a close runs to its end. -/
def twoStartsAndClose : List Move :=
  [.enter (.transact .start), .enter (.transact .start), .advance 0 true, .advance 1 true] ++
    List.replicate 4 (.advance 0 true) ++ List.replicate 2 (.advance 1 true) ++
    .enter .close :: List.replicate 7 (.advance 2 true)

/-- One of two starts has asked the session, and behind the close nothing raises the flag again. -/
theorem overlapping_calls_fit_session_two_starts :
    ∃ s, (start .fresh).run twoStartsAndClose = some s ∧
      s.log.count (0, .asked .start (some false)) = 1 ∧
      (∀ session, (1, .asked .start session) ∈ s.log → session = some false) ∧
      (∀ more s', s.run more = some s' → s'.shared.state.flag = false) := by
  obtain ⟨hstart, -, -, -, hclosed⟩ :=
    overlapping_calls_fit_session .fresh TransactionState.agrees_fresh twoStartsAndClose _ rfl
  exact ⟨_, rfl, rfl, hstart 1, hclosed 2 _ rfl⟩

/-! ## Calls that do not overlap -/

/-- With nobody else moving, the latest call goes from one stage to another. -/
def Alone (callers : List Caller) (call : SessionCall) (accepted : Bool) (m : SharedSession)
    (p : Stage) (m' : SharedSession) (p' : Stage) : Prop :=
  ∀ log, ∃ n log', run ⟨m, callers ++ [⟨call, p⟩], log⟩
    (List.replicate n (.advance callers.length accepted)) =
      some ⟨m', callers ++ [⟨call, p'⟩], log'⟩

section

variable {callers : List Caller} {call : SessionCall} {accepted : Bool}
  {shared shared' : SharedSession} {p p' : Stage}

theorem alone_refl : Alone callers call accepted shared p shared p :=
  fun log => ⟨0, log, rfl⟩

theorem alone_advance (moved : Moved) (h : call.advance accepted shared p = some moved)
    (hrest : Alone callers call accepted moved.shared moved.stage shared' p') :
    Alone callers call accepted shared p shared' p' := by
  intro log
  obtain ⟨n, log', hrun⟩ := hrest ((moved.event.map (callers.length, ·)).toList ++ log)
  have hmove : move ⟨shared, callers ++ [⟨call, p⟩], log⟩ (.advance callers.length accepted) =
      some ⟨moved.shared, callers ++ [⟨call, moved.stage⟩],
        (moved.event.map (callers.length, ·)).toList ++ log⟩ := by
    simp [move, h, update]
  refine ⟨n + 1, log', ?_⟩
  rw [List.replicate_succ, run, hmove]
  exact hrun

/-- Alone, a call takes its step as a whole. -/
theorem alone_step (s : TransactionState)
    (hrest : Alone callers call accepted ⟨s.run accepted call.step, false⟩
      (call.resume (s.runResult accepted call.step)) shared' p') :
    Alone callers call accepted ⟨s, false⟩ .entered shared' p' := by
  -- the call passes, leaves with the lock in hand, or goes through all its stages
  cases hallows : allows s.flag call.step with
  | false =>
    rw [TransactionState.run, TransactionState.runResult, hallows] at hrest
    exact alone_advance _ (by rw [SessionCall.advance, hallows]; rfl) hrest
  | true =>
    rw [TransactionState.run, TransactionState.runResult, hallows, if_pos rfl, if_pos rfl] at hrest
    apply alone_advance ⟨.waiting, ⟨s, false⟩, some .looked⟩ (by
      rw [SessionCall.advance, if_pos hallows])
    apply alone_advance ⟨.checking, ⟨s, true⟩, none⟩ rfl
    cases htouches : s.touches call.step with
    | false =>
      rw [TransactionState.locked, TransactionState.lockedResult, htouches] at hrest
      exact alone_advance _ (by rw [SessionCall.advance, htouches]; rfl) hrest
    | true =>
      rw [TransactionState.locked_of_touches accepted htouches] at hrest
      apply alone_advance ⟨.asking, ⟨s, true⟩, none⟩ (by
        rw [SessionCall.advance, if_pos htouches])
      exact alone_advance _ rfl (alone_advance _ rfl hrest)

end

/-- A call for a step that no other call overlaps does what `TransactionState.run` says. -/
theorem run_transact_alone (s : Interleaving) (hfree : s.shared.locked = false)
    (step : TransactionStep) (accepted : Bool) :
    ∃ n log, s.run (.enter (.transact step) ::
        List.replicate n (.advance s.callers.length accepted)) =
      some ⟨⟨s.shared.state.run accepted step, false⟩, s.callers ++ [⟨.transact step,
        .returned (s.shared.state.runResult accepted step)⟩], log⟩ := by
  obtain ⟨⟨state, locked⟩, callers, log⟩ := s
  cases hfree
  exact alone_step state alone_refl log

/-- A close that no other call overlaps does what `TransactionState.close` says. -/
theorem run_close_alone (s : Interleaving) (hfree : s.shared.locked = false) (accepted : Bool) :
    ∃ n log, s.run (.enter .close :: List.replicate n (.advance s.callers.length accepted)) =
      some ⟨⟨s.shared.state.close accepted, false⟩,
        s.callers ++ [⟨.close, .returned (.ok ())⟩], log⟩ := by
  obtain ⟨⟨state, locked⟩, callers, log⟩ := s
  cases hfree
  apply alone_step state ?_ log
  exact alone_advance _ rfl (alone_advance _ rfl alone_refl)

end Interleaving

end ShellQuery
