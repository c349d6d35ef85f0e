import ShellQuery.Backend.Failure
import ShellQuery.Connection.Uri
import ShellQuery.Settings.Basic

/-!
# Clients

A url that is not blank says all about the connection.  Without one, host, port, credential and
encryption are taken from settings of their own.

A client finds its server when one of its addresses is the server's and the connection is not
encrypted.  The server knows no users, so a client that gives a credential is turned down.

All callers share one client.  The first call starts its construction and the others wait for the
same one, also when it fails.  After a reset the next call starts another construction; callers
that wait already stay with theirs.  Constructions are numbered in the order in which they start,
and a call answers with the number of the construction whose outcome it will receive.
-/

namespace ShellQuery

/-! ## The client that settings ask for -/

namespace ClientOptions

/-- The options of a url. -/
def ofUrl (url : String) : Except ConnectionError ClientOptions :=
  match ConnectionString.read? url with
  | some options => .ok options
  | none => .error (.invalidUri "the url is no connection string")

/-- The options of host, port and the settings that go with them. -/
def ofHost (p : PersistenceSettings) : ClientOptions where
  hosts := [⟨p.host, some p.port⟩]
  credential := p.credentialUsername.map fun name => ⟨some name, p.password, p.database⟩
  tls := p.enableSsl
  defaultDatabase := none

/-- The options that settings ask for. -/
def ofSettings (p : PersistenceSettings) : Except ConnectionError ClientOptions :=
  match p.url.bind Text.nonBlank? with
  | some url => ofUrl url
  | none => .ok (ofHost p)

end ClientOptions

/-! ## The server behind a client -/

/-- Where a server listens: at any address, or at one port under some names. -/
inductive Server where
  | anywhere
  | listening (hosts : List String) (port : Nat)
deriving DecidableEq, Repr

namespace Server

/-- The port of an address without one. -/
def usualPort : Nat := 27017

/-- Whether the server listens at an address. -/
def listensAt : Server → Address → Bool
  | anywhere, _ => true
  | listening hosts port, address =>
    hosts.contains address.host && address.port.getD usualPort == port

/-- Whether a client can talk to the server at all. -/
def isReachable (server : Server) (client : ClientOptions) : Bool :=
  client.tls != some true && client.hosts.any server.listensAt

/-- A client is let in, or the reason why it is not. -/
def accept (server : Server) (client : ClientOptions) : Except BackendFailure Unit :=
  if !server.isReachable client then .error (.serverSelection "no server answers at the address")
  else if client.credential.isSome then .error (.authentication "the credential is not known")
  else .ok ()

end Server

/-! ## A shared client that is made once -/

/-- A provider of a shared client, of which constructions have outcomes of type `ρ`: the number of
    the construction in the slot and the outcomes so far, none for one that is still running. -/
structure Provider (ρ : Type) where
  slot : Option Nat
  outcomes : List (Option ρ)

namespace Provider

variable {ρ : Type}

/-! ## Single steps -/

/-- A provider that nobody has called. -/
def fresh : Provider ρ :=
  ⟨none, []⟩

/-- The number of constructions that have started. -/
def attempts (p : Provider ρ) : Nat :=
  p.outcomes.length

/-- A call: the number of the construction in the slot, which is started when there is none. -/
def call (p : Provider ρ) : Nat × Provider ρ :=
  match p.slot with
  | some k => (k, p)
  | none => (p.attempts, ⟨some p.attempts, p.outcomes ++ [none]⟩)

/-- The outcome of a construction, once it is known. -/
def outcome? (p : Provider ρ) (k : Nat) : Option ρ :=
  p.outcomes[k]?.join

/-- A running construction ends; one that has ended keeps its outcome. -/
def complete (p : Provider ρ) (k : Nat) (result : ρ) : Provider ρ :=
  match p.outcome? k with
  | some _ => p
  | none => { p with outcomes := p.outcomes.set k (some result) }

/-- Forget the construction in the slot. -/
def reset (p : Provider ρ) : Provider ρ :=
  { p with slot := none }

/-! ## What a step leaves behind -/

theorem call_of_slot {p : Provider ρ} {k : Nat} (h : p.slot = some k) : p.call = (k, p) := by
  rw [call, h]

theorem call_of_empty {p : Provider ρ} (h : p.slot = none) :
    p.call = (p.attempts, ⟨some p.attempts, p.outcomes ++ [none]⟩) := by
  rw [call, h]

@[simp] theorem slot_call (p : Provider ρ) : p.call.2.slot = some p.call.1 := by
  cases h : p.slot with
  | none => rw [call_of_empty h]
  | some k => rw [call_of_slot h, h]

/-- A construction that has just started has no outcome. -/
@[simp] theorem outcome?_call (p : Provider ρ) (k : Nat) :
    p.call.2.outcome? k = p.outcome? k := by
  cases h : p.slot with
  | none =>
    rw [call_of_empty h, outcome?, outcome?, List.getElem?_append]
    split
    · rfl
    · next hk =>
      rw [List.getElem?_eq_none (Nat.not_lt.mp hk), List.getElem?_singleton]
      split <;> rfl
  | some _ => rw [call_of_slot h]

@[simp] theorem slot_complete (p : Provider ρ) (k : Nat) (result : ρ) :
    (p.complete k result).slot = p.slot := by
  unfold complete
  split <;> rfl

@[simp] theorem attempts_complete (p : Provider ρ) (k : Nat) (result : ρ) :
    (p.complete k result).attempts = p.attempts := by
  unfold complete
  split
  · rfl
  · exact List.length_set

/-- Only a construction that has started has an outcome. -/
theorem lt_attempts_of_outcome? {p : Provider ρ} {k : Nat} {result : ρ}
    (h : p.outcome? k = some result) : k < p.attempts := by
  obtain ⟨hk, -⟩ := List.getElem?_eq_some_iff.mp (Option.join_eq_some_iff.mp h)
  exact hk

/-- The first end of a construction gives it its outcome; other ends change nothing for it. -/
theorem outcome?_complete {p : Provider ρ} {k : Nat} (hk : k < p.attempts) (j : Nat) (result : ρ) :
    (p.complete j result).outcome? k =
      if j = k then (p.outcome? k).or (some result) else p.outcome? k := by
  unfold complete
  split
  · next hknown =>
    -- the construction has ended before
    split
    · next hjk => rw [← hjk, hknown, Option.some_or]
    · rfl
  · next hrunning =>
    split
    · next hjk =>
      rw [← hjk, hrunning, Option.none_or, outcome?, List.getElem?_set_self (hjk ▸ hk)]
      rfl
    · next hjk => rw [outcome?, List.getElem?_set_ne hjk, outcome?]

/-! ## Whole calls -/

/-- Several calls at once. -/
def callMany : Nat → Provider ρ → List Nat × Provider ρ
  | 0, p => ([], p)
  | count + 1, p =>
    let (k, p) := p.call
    let (ks, p) := callMany count p
    (k :: ks, p)

/-- Several calls at once, all waiting to the end; `result` is what a construction gives that they
    start. -/
def connectMany (p : Provider ρ) (count : Nat) (result : ρ) : List ρ × Provider ρ :=
  let (ks, p) := p.callMany count
  let p := ks.foldl (fun p k => p.complete k result) p
  (ks.map fun k => (p.outcome? k).getD result, p)

/-- One call, waiting to the end. -/
def connect (p : Provider ρ) (result : ρ) : ρ × Provider ρ :=
  let (k, p) := p.call
  let p := p.complete k result
  ((p.outcome? k).getD result, p)

end Provider

end ShellQuery
