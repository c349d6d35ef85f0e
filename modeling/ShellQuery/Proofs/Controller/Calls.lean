import Mathlib.Data.List.Induction
import ShellQuery.Controller.Basic

/-!
# Transactions over a run of calls

A controller with a session is idle, in a transaction, or closed.  `SessionMode.after` says how a
call moves it between the three, without a word on flags and sessions; a run of calls leaves the
controller in the mode that its calls lead to.  Once closed, it answers every call alike and stays
as it is.
-/

namespace ShellQuery

/-! ## Modes -/

/-- What a controller with a session is doing. -/
inductive SessionMode where
  | idle
  | active
  | closed
deriving DecidableEq, Repr

namespace ControllerCall

/-- The step on the session that a call asks for. -/
@[simp] def step? : ControllerCall → Option TransactionStep
  | transact step _ => some step
  | query _ => none
  | update _ => none
  | close _ => none

/-- Whether a call closes the controller. -/
@[simp] def isClose : ControllerCall → Bool
  | transact _ _ => false
  | query _ => false
  | update _ => false
  | close _ => true

/-- Whether the session accepts the step of a call, if it takes one. -/
@[simp] def isAccepted : ControllerCall → Bool
  | transact _ accepted => accepted
  | query _ => true
  | update _ => true
  | close accepted => accepted

end ControllerCall

namespace SessionMode

/-- The mode behind a step.  A start counts when the session accepts it, an end always, and neither
    does when the controller is closed. -/
def afterStep (accepted : Bool) : SessionMode → TransactionStep → SessionMode
  | closed, _ => closed
  | active, .start => active
  | idle, .start => if accepted then active else idle
  | _, .commit => idle
  | _, .abort => idle

/-- The mode behind a call. -/
@[simp] def after (mode : SessionMode) : ControllerCall → SessionMode
  | .transact step accepted => mode.afterStep accepted step
  | .query _ => mode
  | .update _ => mode
  | .close _ => closed

/-- The session and the flag in a mode. -/
def transaction : SessionMode → TransactionState
  | idle => ⟨some false, false⟩
  | active => ⟨some true, true⟩
  | closed => ⟨none, false⟩

variable {calls : List ControllerCall}

theorem afterStep_eq_closed_iff {mode : SessionMode} {step : TransactionStep} {accepted : Bool} :
    mode.afterStep accepted step = closed ↔ mode = closed := by
  cases mode <;> cases step <;> cases accepted <;> simp [afterStep]

/-- Of the steps that the session accepts only a start leads to a transaction. -/
theorem afterStep_eq_active_iff {mode : SessionMode} {step : TransactionStep} :
    mode.afterStep true step = active ↔ mode ≠ closed ∧ step = .start := by
  cases mode <;> cases step <;> simp [afterStep]

/-- A run ends closed when it has closed the controller. -/
theorem foldl_after_eq_closed_iff :
    calls.foldl after idle = closed ↔ ∃ call ∈ calls, call.isClose = true := by
  induction calls using List.reverseRecOn with
  | nil => simp
  | append_singleton earlier call ih =>
    simp only [List.foldl_append, List.foldl_cons, List.foldl_nil, List.mem_append,
      List.mem_singleton, or_and_right, exists_or, exists_eq_left, ← ih]
    cases call with
    | transact step accepted => simp [afterStep_eq_closed_iff]
    | query | update | close => simp

/-- The last step on the session that calls ask for. -/
def lastStep? (calls : List ControllerCall) : Option TransactionStep :=
  (calls.filterMap ControllerCall.step?).getLast?

theorem lastStep?_append_singleton (earlier : List ControllerCall) (call : ControllerCall) :
    lastStep? (earlier ++ [call]) = call.step?.or (lastStep? earlier) := by
  cases call <;> simp [lastStep?]

/-- If the session accepts all steps, a run ends in a transaction when it has not closed the
    controller and the last step that it has asked for is a start. -/
theorem foldl_after_eq_active_iff (haccepted : ∀ call ∈ calls, call.isAccepted = true) :
    calls.foldl after idle = active ↔
      (∀ call ∈ calls, call.isClose = false) ∧ lastStep? calls = some .start := by
  induction calls using List.reverseRecOn with
  | nil => simp [lastStep?]
  | append_singleton earlier call ih =>
    have hearlier : ∀ call ∈ earlier, call.isAccepted = true :=
      fun call hcall => haccepted call (List.mem_append_left _ hcall)
    have hcall : call.isAccepted = true := haccepted call (by simp)
    rw [lastStep?_append_singleton, List.foldl_append, List.foldl_cons, List.foldl_nil]
    simp only [List.mem_append, List.mem_singleton, or_imp, forall_and, forall_eq]
    cases call with
    | query text | update text => simpa using ih hearlier
    | close accepted => simp
    | transact step accepted =>
      cases hcall
      -- the step counts when the earlier calls have not closed the controller
      simp [afterStep_eq_active_iff, foldl_after_eq_closed_iff]

end SessionMode

/-! ## Controllers in a mode -/

namespace Controller

/-- The controller is in a mode: session, flag and resolver all say so. -/
structure InMode (c : Controller) (mode : SessionMode) : Prop where
  transaction : c.transaction = mode.transaction
  resolver : c.resolver = none ↔ mode = .closed

variable {c : Controller} {mode : SessionMode} {b : Backend}

theorem InMode.isInTransaction (h : c.InMode mode) :
    c.isInTransaction = true ↔ mode = .active := by
  rw [Controller.isInTransaction, h.transaction]
  cases mode <;> simp [SessionMode.transaction]

/-- A call moves the controller as it moves the mode. -/
theorem InMode.serve (h : c.InMode mode) (b : Backend) (call : ControllerCall) :
    (c.serve b call).2.1.InMode (mode.after call) := by
  obtain ⟨resolver, transaction, normalizeIds⟩ := c
  obtain ⟨htransaction, hresolver⟩ := h
  cases htransaction
  cases call with
  | query text | update text =>
    cases mode <;> exact ⟨rfl, hresolver⟩
  | close accepted =>
    -- whatever the mode was, nothing is left
    exact ⟨by cases mode <;> cases accepted <;> rfl, by simp [Controller.serve, close]⟩
  | transact step accepted =>
    cases mode with
    | closed => cases step <;> cases accepted <;> exact ⟨rfl, hresolver⟩
    | idle | active =>
      refine ⟨by cases step <;> cases accepted <;> rfl, ?_⟩
      rw [SessionMode.after, SessionMode.afterStep_eq_closed_iff]
      exact hresolver

theorem InMode.afterAll (h : c.InMode mode) (b : Backend) (calls : List ControllerCall) :
    (c.afterAll b calls).InMode (calls.foldl SessionMode.after mode) := by
  induction calls generalizing c mode b with
  | nil => exact h
  | cons call rest ih => exact ih (h.serve b call) (c.serve b call).2.2

/-! ## Closed controllers -/

/-- What a closed controller answers. -/
def closedAnswer : ControllerCall → ControllerAnswer
  | .transact _ _ | .close _ => .done (.ok ())
  | .query _ => .result (.error (.connection .notConnected))
  | .update _ => .summary (.error (.connection .notConnected))

theorem serve_of_closed (h : c.InMode .closed) (b : Backend) (call : ControllerCall) :
    c.serve b call = (closedAnswer call, c, b) := by
  obtain ⟨resolver, transaction, normalizeIds⟩ := c
  obtain ⟨htransaction, hresolver⟩ := h
  cases htransaction
  cases hresolver.mpr rfl
  cases call with
  | transact step accepted => cases step <;> rfl
  | query | update | close => rfl

theorem serveAll_of_closed (h : c.InMode .closed) (b : Backend) (calls : List ControllerCall) :
    c.serveAll b calls = (calls.map closedAnswer, c, b) := by
  induction calls with
  | nil => rfl
  | cons call rest ih => rw [Controller.serveAll, serve_of_closed h]; simp [ih]

/-- Closing closes a controller in any state. -/
theorem inMode_close (c : Controller) (accepted : Bool) : (c.close accepted).InMode .closed :=
  ⟨rfl, by simp [close]⟩

/-! ## Controllers without a session -/

theorem transaction_of_no_session (h : c.transaction = ⟨none, false⟩) (b : Backend)
    (calls : List ControllerCall) : (c.afterAll b calls).transaction = ⟨none, false⟩ := by
  induction calls generalizing c b with
  | nil => exact h
  | cons call rest ih =>
    apply ih
    obtain ⟨resolver, transaction, normalizeIds⟩ := c
    cases h
    cases call with
    | transact step accepted => cases step <;> rfl
    | query | update | close => rfl

/-! ## Steps with nothing to do -/

/-- A call for the step does not touch the session: it succeeds, and leaves the controller as it is,
    whatever the session would have said. -/
structure PassesOver (c : Controller) (step : TransactionStep) : Prop where
  untouched : c.transaction.touches step = false
  succeeds (accepted : Bool) : c.transact accepted step = (.ok (), c)

/-- The session is left alone when the flag leaves nothing to do. -/
theorem passesOver_of_not_allowed {step : TransactionStep}
    (h : TransactionState.allows c.isInTransaction step = false) : c.PassesOver step := by
  have hflag : TransactionState.allows c.transaction.flag step = false := h
  constructor
  · rw [TransactionState.touches, hflag, Bool.and_false]
  · intro accepted
    rw [transact, TransactionState.runResult, TransactionState.run, hflag]
    rfl

/-! ## Main result -/

/-- A run of calls takes a controller with a session through the three modes.  If the session
    accepts all steps, the controller is in a transaction exactly when it has not been closed and
    the last step that was asked for is a start.  Behind any run, a start in a transaction and an
    end outside of one leave the session alone, and queries leave the controller as it is.  Once it
    is closed, the controller answers queries with an error and all else with success, sends
    nothing, and does not change any more.  Without a session it is never in a transaction. -/
theorem transactions_over_calls (c : Controller) (b : Backend) (calls : List ControllerCall) :
    (c.resolver ≠ none → c.transaction = .fresh →
      (c.afterAll b calls).InMode (calls.foldl SessionMode.after .idle) ∧
      ((∀ call ∈ calls, call.isAccepted = true) →
        ((c.afterAll b calls).isInTransaction = true ↔
          (∀ call ∈ calls, call.isClose = false) ∧
            SessionMode.lastStep? calls = some .start))) ∧
    ((c.afterAll b calls).isInTransaction = true → (c.afterAll b calls).PassesOver .start) ∧
    ((c.afterAll b calls).isInTransaction = false →
      (c.afterAll b calls).PassesOver .commit ∧ (c.afterAll b calls).PassesOver .abort) ∧
    (∀ text b',
      ((c.afterAll b calls).serve b' (.query text)).2.1 = c.afterAll b calls ∧
      ((c.afterAll b calls).serve b' (.update text)).2.1 = c.afterAll b calls) ∧
    (∀ accepted more,
      c.serveAll b (calls ++ .close accepted :: more) =
        ((c.serveAll b calls).1 ++ .done (.ok ()) :: more.map closedAnswer,
          (c.afterAll b calls).close accepted, (c.serveAll b calls).2.2) ∧
      ((c.afterAll b calls).close accepted).isInTransaction = false) ∧
    (c.transaction = ⟨none, false⟩ → (c.afterAll b calls).isInTransaction = false) := by
  refine ⟨?_, ?_, ?_, ?_, ?_, ?_⟩
  · -- a fresh session is idle, and the mode that the run ends in has the rest to say
    intro hresolver hfresh
    have hidle : c.InMode .idle := ⟨hfresh, by simp [hresolver]⟩
    have hmode := hidle.afterAll b calls
    refine ⟨hmode, fun haccepted => ?_⟩
    rw [hmode.isInTransaction, SessionMode.foldl_after_eq_active_iff haccepted]
  · intro hactive
    apply passesOver_of_not_allowed
    rw [hactive]
    rfl
  · intro hidle
    exact ⟨passesOver_of_not_allowed hidle, passesOver_of_not_allowed hidle⟩
  · intro text b'
    exact ⟨rfl, rfl⟩
  · -- from the call of `close` on every answer is that of a closed controller
    intro accepted more
    refine ⟨?_, rfl⟩
    simp only [serveAll_append, serveAll_cons, Controller.serve, Controller.afterAll,
      serveAll_of_closed (inMode_close _ accepted)]
  · intro hnone
    rw [isInTransaction, transaction_of_no_session hnone]

/-- A transaction that is started a second time behind an end and a query that fails is active; with
    a close in between nothing happens any more; and without a session nothing ever does. -/
theorem transactions_over_calls_closed_between :
    (Controller.afterAll ⟨some ⟨some "d", false⟩, .fresh, false⟩ (.fresh [])
        [.transact .start true, .query "c", .transact .commit true, .transact .start true,
          .transact .start true]).isInTransaction = true ∧
      Controller.serveAll ⟨some ⟨some "d", false⟩, .fresh, false⟩ (.fresh [])
        [.transact .start true, .close true, .transact .start true, .update "c.remove()"] =
        ([.done (.ok ()), .done (.ok ()), .done (.ok ()),
            .summary (.error (.connection .notConnected))],
          ⟨none, ⟨none, false⟩, false⟩, .fresh []) ∧
      (Controller.afterAll ⟨some ⟨some "d", false⟩, ⟨none, false⟩, false⟩ (.fresh [])
        [.transact .start true]).isInTransaction = false := by
  refine ⟨?_, ?_, ?_⟩
  · obtain ⟨hsession, -⟩ := transactions_over_calls ⟨some ⟨some "d", false⟩, .fresh, false⟩
      (.fresh []) [.transact .start true, .query "c", .transact .commit true,
        .transact .start true, .transact .start true]
    exact ((hsession (Option.some_ne_none _) rfl).2 (by simp)).mpr ⟨by simp, rfl⟩
  · exact ((transactions_over_calls _ (.fresh []) [.transact .start true]).2.2.2.2.1 true
      [.transact .start true, .update "c.remove()"]).1
  · exact (transactions_over_calls _ _ _).2.2.2.2.2 rfl

end Controller

end ShellQuery
