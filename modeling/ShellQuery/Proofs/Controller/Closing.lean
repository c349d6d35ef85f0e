import ShellQuery.Proofs.Controller.Interleaving

/-!
# Sessions given back with a transaction

A close ends the transaction that it sees when it looks at the flag, and gives the session back
without looking again.  A start that comes in between leaves the session with a transaction, and the
close gives it back like that.  This is the only way: a session that is given back with an active
transaction has been raised, by a start that it accepted, since the close looked.
-/

namespace ShellQuery

open TransactionState (allows activeAfter)

namespace SessionCall.Advances

variable {call : SessionCall} {accepted : Bool} {m : SharedSession} {p : Stage} {moved : Moved}

/-! ## Moves of one call -/

/-- A call has looked at the flag once it is not where it entered. -/
theorem looked (h : call.Advances accepted m p moved) :
    p = .entered ∧ moved.event = some .looked ∨ p ≠ .entered := by
  cases h with
  | look | pass => exact .inl ⟨rfl, rfl⟩
  | acquire | proceed | leave | ask | store | release | lower => exact .inr nofun

/-- A close that comes to give the session back has seen the flag down, or has lowered it, if there
    is a session at all. -/
theorem flag_of_releasing (h : call.Advances accepted m p moved) (hstage : moved.stage = .releasing)
    (hsession : moved.shared.state.session.isSome = true) : moved.shared.state.flag = false := by
  cases call with
  | transact step =>
    -- only a close gives a session back
    cases h with
    | look | pass | acquire | proceed | leave | ask | store | release | lower => cases hstage
  | close =>
    cases h with
    | look | acquire | proceed | ask | release | lower => cases hstage
    | pass hallows => exact hallows
    | leave htouches =>
      rw [TransactionState.touches, hsession] at htouches
      exact htouches
    | store asked answer => rfl

/-- A flag that is up over a session was up before, or a start has just been stored. -/
theorem stored_of_flag (h : call.Advances accepted m p moved) (hp : p.Holds call m)
    (hsession : moved.shared.state.session.isSome = true) (hflag : moved.shared.state.flag = true) :
    moved.event = some (.stored true) ∨
      m.state.session.isSome = true ∧ m.state.flag = true := by
  cases h with
  | look | pass | acquire | proceed | leave => exact .inr ⟨hsession, hflag⟩
  | ask => exact .inr ⟨Option.isSome_of_mem hp.2.1, hflag⟩
  | store asked answer =>
    have hactive : activeAfter asked call.step = true := hflag
    exact .inl (by rw [hactive])
  | release => cases hsession
  | lower => cases hflag

theorem of_released {session : Option Bool} (h : call.Advances accepted m p moved)
    (hevent : moved.event = some (.released session)) :
    p = .releasing ∧ m.locked = false ∧ m.state.session = session := by
  cases h with
  | release hlocked => cases hevent; exact ⟨rfl, hlocked, rfl⟩
  | look | pass | acquire | proceed | leave | ask | store | lower => cases hevent

end SessionCall.Advances

namespace Interleaving

/-! ## Starts since a call looked -/

/-- Since the call looked at the flag, a start that the session accepted has been stored. -/
def RaisedSince (log : List (Nat × SessionEvent)) (i : Nat) : Prop :=
  ∃ later earlier j, log = later ++ (i, .looked) :: earlier ∧ (j, .stored true) ∈ later

variable {log : List (Nat × SessionEvent)} {i j : Nat}

theorem RaisedSince.append (h : RaisedSince log i) (new : List (Nat × SessionEvent)) :
    RaisedSince (new ++ log) i := by
  obtain ⟨later, earlier, j, rfl, hstored⟩ := h
  exact ⟨new ++ later, earlier, j, (List.append_assoc ..).symm, List.mem_append_right _ hstored⟩

theorem raisedSince_of_looked (h : (i, .looked) ∈ log) :
    RaisedSince ((j, .stored true) :: log) i := by
  obtain ⟨later, earlier, rfl⟩ := List.append_of_mem h
  exact ⟨(j, .stored true) :: later, earlier, j, rfl, List.mem_cons_self⟩

/-! ## The invariant -/

variable {s s' : Interleaving} {m : Move} {moves : List Move}

/-- What every order of moves keeps about closes.  Where one is about to give back a session with
    the flag up, a start has been stored since it looked; and so it was whenever one did. -/
structure Guarded (s : Interleaving) : Prop where
  coherent : s.Coherent
  looked : ∀ (i : Nat) (call : SessionCall) (stage : Stage), s.callers[i]? = some ⟨call, stage⟩ →
    stage ≠ .entered → (i, .looked) ∈ s.log
  raised : ∀ (i : Nat) (call : SessionCall), s.callers[i]? = some ⟨call, .releasing⟩ →
    s.shared.state.session.isSome = true → s.shared.state.flag = true → RaisedSince s.log i
  released : ∀ (i : Nat) (earlier : List (Nat × SessionEvent)),
    (i, .released (some true)) :: earlier <:+ s.log → RaisedSince earlier i

theorem guarded_start {state : TransactionState} (h : state.Agrees) : (start state).Guarded where
  coherent := coherent_start h
  looked _ _ _ hcaller := by cases hcaller
  raised _ _ hcaller := by cases hcaller
  released _ _ hsuffix := by cases List.suffix_nil.mp hsuffix

theorem Guarded.enter (h : s.Guarded) (call : SessionCall) :
    Guarded { s with callers := s.callers ++ [⟨call, .entered⟩] } where
  coherent := h.coherent.enter call
  released := h.released
  looked i other stage hcaller hstage := by
    rcases callers_enter hcaller with hold | hnew
    · exact h.looked i other stage hold hstage
    · cases hnew
      exact absurd rfl hstage
  raised i other hcaller := by
    rcases callers_enter hcaller with hold | hnew
    · exact h.raised i other hold
    · cases hnew

theorem Guarded.update {accepted : Bool} {call : SessionCall} {stage : Stage} {moved : Moved}
    (h : s.Guarded) (hcaller : s.callers[i]? = some ⟨call, stage⟩)
    (hmoved : call.Advances accepted s.shared stage moved) : (s.update i call moved).Guarded := by
  have hholds := h.coherent.holds i call stage hcaller
  refine ⟨h.coherent.update hcaller hmoved, ?_, ?_, ?_⟩
  · intro j other q hj hq
    rcases callers_update hj with ⟨rfl, -⟩ | ⟨-, hj⟩
    · rcases hmoved.looked with ⟨-, hevent⟩ | hstage
      · exact mem_log_update.mpr (.inl ⟨rfl, hevent⟩)
      · exact mem_log_update.mpr (.inr (h.looked i call stage hcaller hstage))
    · exact mem_log_update.mpr (.inr (h.looked j other q hj hq))
  · intro j other hj hsession hflag
    rcases callers_update hj with ⟨rfl, hnew⟩ | ⟨-, hj⟩
    · -- whoever comes to give the session back finds the flag down
      have hstage : moved.stage = .releasing := (congrArg Caller.stage hnew).symm
      cases hflag.symm.trans (hmoved.flag_of_releasing hstage hsession)
    · rcases hmoved.stored_of_flag hholds hsession hflag with hevent | ⟨hsession, hflag⟩
      · have hlooked : (j, .looked) ∈ s.log := h.looked j other .releasing hj nofun
        rw [Interleaving.update, hevent]
        exact raisedSince_of_looked hlooked
      · exact (h.raised j other hj hsession hflag).append _
  · intro j earlier hsuffix
    cases hevent : moved.event with
    | none =>
      rw [Interleaving.update, hevent] at hsuffix
      exact h.released j earlier hsuffix
    | some event =>
      rw [Interleaving.update, hevent] at hsuffix
      rcases List.suffix_cons_iff.mp hsuffix with heq | hsuffix
      · -- the session is given back under the lock, where the flag agrees
        cases heq
        obtain ⟨rfl, hlocked, hsession⟩ := hmoved.of_released hevent
        have hflag : s.shared.state.flag = true := h.coherent.agrees hlocked true hsession
        exact h.raised i call hcaller (Option.isSome_of_mem hsession) hflag
      · exact h.released j earlier hsuffix

theorem Guarded.move (h : s.Guarded) (hmove : s.move m = some s') : s'.Guarded := by
  rcases move_cases hmove with ⟨call, rfl⟩ | ⟨i, accepted, call, stage, moved, hcaller, hmoved, rfl⟩
  · exact h.enter call
  · exact h.update hcaller hmoved

/-! ## Main result -/

/-- A session that is given back with an active transaction has been raised, by a start, since the
    close looked at the flag. -/
theorem raisedSince_of_released (state : TransactionState) (hstate : state.Agrees)
    (moves : List Move) (s : Interleaving) (hrun : (start state).run moves = some s) (i : Nat)
    (later earlier : List (Nat × SessionEvent))
    (hlog : s.log = later ++ (i, .released (some true)) :: earlier) : RaisedSince earlier i := by
  have hguarded : s.Guarded := run_preserves Guarded.move (guarded_start hstate) hrun
  apply hguarded.released i earlier
  rw [hlog]
  exact List.suffix_append ..

/-- A close sees the flag down, a start runs to its end, and the close goes on. -/
def closeAroundStart : List Move :=
  [.enter .close, .enter (.transact .start), .advance 0 true] ++
    List.replicate 5 (.advance 1 true) ++ [.advance 0 true]

theorem raisedSince_of_released_around_start :
    ∃ s, (start .fresh).run closeAroundStart = some s ∧
      s.log = [(0, .released (some true)), (1, .stored true), (1, .asked .start (some false)),
        (1, .looked), (0, .looked)] ∧
      RaisedSince s.log.tail 0 :=
  ⟨_, rfl, rfl, raisedSince_of_released .fresh TransactionState.agrees_fresh closeAroundStart _ rfl
    0 [] _ rfl⟩

/-- The session can be given back with its transaction active, though it accepts every step. -/
theorem released_with_active_transaction :
    ∃ s, (start .fresh).run closeAroundStart = some s ∧ (0, .released (some true)) ∈ s.log :=
  ⟨_, rfl, by decide⟩

end Interleaving

end ShellQuery
