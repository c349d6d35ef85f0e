import ShellQuery.Controller.Transaction

/-!
# Calls that overlap

Calls on a session may overlap.  A call looks at the flag first, for which it needs no lock.  If
there is something to do it takes the lock of the session, looks at the flag again, asks the
session, stores the outcome in the flag and lets go of the lock.  A close aborts in this way, then
gives the session back under the lock, and lowers the flag without it.

A call moves on by one access to what the calls share.  `Interleaving.move` lets one call move on,
and a list of moves is one of the orders in which calls that overlap can take place.
-/

namespace ShellQuery

/-- A call on a session. -/
inductive SessionCall where
  | transact (step : TransactionStep)
  | close
deriving DecidableEq, Repr

/-- Where a call stands.  From `checking` to `storing` it has the lock of the session. -/
inductive Stage where
  | entered
  | waiting
  | checking
  | asking
  | storing (accepted : Bool) (answer : Except Error Unit)
  | releasing
  | lowering
  | returned (answer : Except Error Unit)

/-- What a call does: it looks at the flag, asks the session for a step, stores the flag, or gives
    the session back.  Where it meets the session, the event says whether there was one and whether
    its transaction was active. -/
inductive SessionEvent where
  | looked
  | asked (step : TransactionStep) (session : Option Bool)
  | stored (flag : Bool)
  | released (session : Option Bool)
deriving DecidableEq, Repr

/-- What the calls share: the session with its flag, and whether one of them has the lock. -/
structure SharedSession where
  state : TransactionState
  locked : Bool
deriving DecidableEq, Repr

/-- What a move of one call leaves behind. -/
structure Moved where
  stage : Stage
  shared : SharedSession
  event : Option SessionEvent

namespace TransactionState

/-- Ask the session for a step; the flag says nothing of it yet. -/
def ask (accepted : Bool) (step : TransactionStep) (s : TransactionState) : TransactionState :=
  { s with session := some (activeAfter accepted step) }

/-- Store in the flag what has become of a step. -/
def store (accepted : Bool) (step : TransactionStep) (s : TransactionState) : TransactionState :=
  { s with flag := activeAfter accepted step }

/-- A step that touches the session is to ask for it and to store the outcome. -/
theorem locked_of_touches {s : TransactionState} {step : TransactionStep} (accepted : Bool)
    (h : s.touches step = true) :
    s.locked accepted step = (s.ask accepted step).store accepted step := by
  rw [locked, if_pos h]
  rfl

end TransactionState

namespace SessionCall

/-! ## One call -/

/-- The step that a call takes on the session. -/
def step : SessionCall → TransactionStep
  | transact step => step
  | close => .abort

/-- Where a call goes on behind its step.  A close gives the session back whatever the answer. -/
def resume (answer : Except Error Unit) : SessionCall → Stage
  | transact _ => .returned answer
  | close => .releasing

/-- Let a call move on; `accepted` is whether the session accepts what it is asked for.  A call that
    needs the lock cannot move while another has it, and one that has returned not at all. -/
def advance (call : SessionCall) (accepted : Bool) (m : SharedSession) : Stage → Option Moved
  | .entered =>
    if TransactionState.allows m.state.flag call.step then some ⟨.waiting, m, some .looked⟩
    else some ⟨call.resume (.ok ()), m, some .looked⟩
  | .waiting => if m.locked then none else some ⟨.checking, { m with locked := true }, none⟩
  | .checking =>
    if m.state.touches call.step then some ⟨.asking, m, none⟩
    else some ⟨call.resume (.ok ()), { m with locked := false }, none⟩
  | .asking =>
    some ⟨.storing accepted (m.state.lockedResult accepted call.step),
      { m with state := m.state.ask accepted call.step }, some (.asked call.step m.state.session)⟩
  | .storing accepted answer =>
    some ⟨call.resume answer, ⟨m.state.store accepted call.step, false⟩,
      some (.stored (TransactionState.activeAfter accepted call.step))⟩
  | .releasing =>
    if m.locked then none
    else some ⟨.lowering, { m with state := m.state.release }, some (.released m.state.session)⟩
  | .lowering => some ⟨.returned (.ok ()), { m with state := m.state.lower }, none⟩
  | .returned _ => none

end SessionCall

/-! ## All calls -/

/-- A call and where it stands. -/
structure Caller where
  call : SessionCall
  stage : Stage

/-- All calls so far, what they share, and what they have done, the latest event first. -/
structure Interleaving where
  shared : SharedSession
  callers : List Caller
  log : List (Nat × SessionEvent)

/-- A call is made, or one that was made moves on. -/
inductive Move where
  | enter (call : SessionCall)
  | advance (caller : Nat) (accepted : Bool)
deriving DecidableEq, Repr

namespace Interleaving

/-- No call has been made. -/
def start (state : TransactionState) : Interleaving :=
  ⟨⟨state, false⟩, [], []⟩

/-- What one caller's move makes of all. -/
def update (s : Interleaving) (i : Nat) (call : SessionCall) (moved : Moved) : Interleaving :=
  ⟨moved.shared, s.callers.set i ⟨call, moved.stage⟩,
    (moved.event.map fun event => (i, event)).toList ++ s.log⟩

/-- Make a move, if it is possible. -/
def move (s : Interleaving) : Move → Option Interleaving
  | .enter call => some { s with callers := s.callers ++ [⟨call, .entered⟩] }
  | .advance i accepted => do
    let caller ← s.callers[i]?
    let moved ← caller.call.advance accepted s.shared caller.stage
    some (s.update i caller.call moved)

/-- Make moves one after the other. -/
def run (s : Interleaving) : List Move → Option Interleaving
  | [] => some s
  | first :: rest => (s.move first).bind fun s => s.run rest

end Interleaving

end ShellQuery
