import ShellQuery.Error

/-!
# Transactions of a session

A session has at most one transaction.  A *flag* outside of the session tells callers whether there
is one.  A call looks at the flag first and may find nothing to do; otherwise it takes one step on
the session, which looks at the flag again, because other callers may have changed it.
-/

namespace ShellQuery

/-- A step on a session. -/
inductive TransactionStep where
  | start
  | commit
  | abort
deriving DecidableEq, Repr

/-- A session, if there is one, with whether its transaction is active, and the flag. -/
structure TransactionState where
  session : Option Bool
  flag : Bool
deriving DecidableEq, Repr

namespace TransactionState

/-! ## Single steps -/

/-- A new session without a transaction. -/
def fresh : TransactionState :=
  ⟨some false, false⟩

/-- Whether the flag leaves anything to do for a step: only what is not active can start, and only
    what is active can end. -/
def allows (flag : Bool) : TransactionStep → Bool
  | .start => !flag
  | .commit => flag
  | .abort => flag

/-- Whether a step would touch the session. -/
def touches (s : TransactionState) (step : TransactionStep) : Bool :=
  s.session.isSome && allows s.flag step

/-- Whether a transaction is active behind a step: a start that was accepted makes it so; an end
    makes it inactive, whether it was accepted or not. -/
def activeAfter (accepted : Bool) : TransactionStep → Bool
  | .start => accepted
  | .commit => false
  | .abort => false

/-- Take a step on the session; without a session, or with nothing to do, nothing happens. -/
def locked (accepted : Bool) (step : TransactionStep) (s : TransactionState) : TransactionState :=
  if s.touches step then
    ⟨some (activeAfter accepted step), activeAfter accepted step⟩
  else s

/-- The answer to a step on the session. -/
def lockedResult (accepted : Bool) (step : TransactionStep) (s : TransactionState) :
    Except Error Unit :=
  if s.touches step && !accepted then
    .error (.connection (.transactionFailed "the session does not accept the step"))
  else .ok ()

/-- Give the session back. -/
def release (s : TransactionState) : TransactionState :=
  { s with session := none }

/-- Lower the flag. -/
def lower (s : TransactionState) : TransactionState :=
  { s with flag := false }

/-! ## Whole calls -/

/-- A call of its own: nothing to do, or a step. -/
def run (accepted : Bool) (step : TransactionStep) (s : TransactionState) : TransactionState :=
  if allows s.flag step then s.locked accepted step else s

/-- The answer to a call of its own. -/
def runResult (accepted : Bool) (step : TransactionStep) (s : TransactionState) :
    Except Error Unit :=
  if allows s.flag step then s.lockedResult accepted step else .ok ()

/-- Close: end a transaction that is active, give the session back and lower the flag. -/
def close (accepted : Bool) (s : TransactionState) : TransactionState :=
  (s.run accepted .abort).release.lower

end TransactionState

end ShellQuery
