import ShellQuery.Connection.Client
import ShellQuery.Controller.Transaction
import ShellQuery.Resolver.Resolve

/-!
# The controller

A controller answers queries for one client: it resolves them, shapes their results as the settings
say and keeps the transaction of a session.  Once closed it answers no query any more.

A host drives a controller by calls, each of which is over before the next one begins.  A call has
an answer, and it leaves the controller and the backend as the next call finds them.
-/

namespace ShellQuery

/-- A controller: how it resolves queries until it is closed, its session, and whether object ids
    of results are replaced. -/
structure Controller where
  resolver : Option Resolver
  transaction : TransactionState
  normalizeIds : Bool
deriving DecidableEq, Repr

/-- What the construction of a client gives. -/
abbrev ClientResult := Except ConnectionError ClientOptions

namespace Controller

/-! ## Opening -/

/-- The controller that settings ask for. -/
def ofSettings (p : PersistenceSettings) : Controller :=
  ⟨some (Resolver.make p.database p.allowServerEval), .fresh, p.normalizeIdFields⟩

/-- Get the client, make sure that the backend answers it, and open a session. -/
def open? (server : Server) (settings : Settings) (provider : Provider ClientResult)
    (b : Backend) : Except Error Controller × Provider ClientResult × Backend :=
  let (client, provider) := provider.connect (ClientOptions.ofSettings settings.persistence)
  match client with
  | .error e => (.error (.connection e), provider, b)
  | .ok options =>
    match server.accept options with
    | .error failure => (.error (.backend failure), provider, b)
    | .ok _ =>
      let (outcome, b) := b.step .listDatabases
      match outcome with
      | .error failure => (.error (.backend failure), provider, b)
      | .ok _ => (.ok (ofSettings settings.persistence), provider, b)

/-! ## Queries -/

/-- Shape a result as the settings say. -/
def shape (c : Controller) (result : Json) : Json :=
  if c.normalizeIds then result.normalize .idOnly else result

/-- Resolve a query, unless the controller is closed. -/
def resolve (c : Controller) (text : String) (b : Backend) : Except Error Json × Backend :=
  match c.resolver with
  | some r => r.resolve text b
  | none => (.error (.connection .notConnected), b)

/-- The result of a query. -/
def query (c : Controller) (text : String) (b : Backend) : Except Error Json × Backend :=
  let (outcome, b) := c.resolve text b
  (outcome.map c.shape, b)

/-- The summary of what a query wrote. -/
def update (c : Controller) (text : String) (b : Backend) :
    Except Error (Option WriteSummary) × Backend :=
  let (outcome, b) := c.resolve text b
  (outcome.bind (WriteSummary.ofResult c.normalizeIds), b)

/-! ## Transactions -/

/-- Whether a transaction is active. -/
def isInTransaction (c : Controller) : Bool :=
  c.transaction.flag

/-- Start, commit or roll back a transaction; `accepted` is whether the session accepts it. -/
def transact (accepted : Bool) (step : TransactionStep) (c : Controller) :
    Except Error Unit × Controller :=
  (c.transaction.runResult accepted step,
    { c with transaction := c.transaction.run accepted step })

/-- Close the controller: its session ends and it answers no query any more. -/
def close (accepted : Bool) (c : Controller) : Controller :=
  { c with resolver := none, transaction := c.transaction.close accepted }

end Controller

/-! ## Calls one after the other -/

/-- A call on a controller; `accepted` is whether the session accepts the step of the call. -/
inductive ControllerCall where
  | transact (step : TransactionStep) (accepted : Bool)
  | query (text : String)
  | update (text : String)
  | close (accepted : Bool)

/-- The answer to a call. -/
inductive ControllerAnswer where
  | done (outcome : Except Error Unit)
  | result (outcome : Except Error Json)
  | summary (outcome : Except Error (Option WriteSummary))

namespace Controller

/-- Answer one call. -/
def serve (c : Controller) (b : Backend) :
    ControllerCall → ControllerAnswer × Controller × Backend
  | .transact step accepted =>
    let (outcome, c) := c.transact accepted step
    (.done outcome, c, b)
  | .query text =>
    let (outcome, b) := c.query text b
    (.result outcome, c, b)
  | .update text =>
    let (outcome, b) := c.update text b
    (.summary outcome, c, b)
  | .close accepted => (.done (.ok ()), c.close accepted, b)

/-- Answer calls one after the other. -/
def serveAll (c : Controller) (b : Backend) :
    List ControllerCall → List ControllerAnswer × Controller × Backend
  | [] => ([], c, b)
  | call :: rest =>
    let (answer, c, b) := c.serve b call
    let (answers, c, b) := c.serveAll b rest
    (answer :: answers, c, b)

/-- The controller behind a run of calls. -/
def afterAll (c : Controller) (b : Backend) (calls : List ControllerCall) : Controller :=
  (c.serveAll b calls).2.1

theorem serveAll_cons (c : Controller) (b : Backend) (call : ControllerCall)
    (rest : List ControllerCall) :
    c.serveAll b (call :: rest) =
      let (answer, c, b) := c.serve b call
      let (answers, c, b) := c.serveAll b rest
      (answer :: answers, c, b) := rfl

/-- Calls are answered as if those before had been all. -/
theorem serveAll_append (c : Controller) (b : Backend) (first second : List ControllerCall) :
    c.serveAll b (first ++ second) =
      let (answers, c, b) := c.serveAll b first
      let (others, c, b) := c.serveAll b second
      (answers ++ others, c, b) := by
  induction first generalizing c b with
  | nil => rfl
  | cons call rest ih => simp only [List.cons_append, serveAll, ih]

end Controller

end ShellQuery
