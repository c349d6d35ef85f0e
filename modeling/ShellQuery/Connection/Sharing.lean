import ShellQuery.Connection.Client

/-!
# Callers of a shared client

Calls on a provider, the ends of constructions and resets can come in any order.  A call joins the
construction in the slot, which it starts from its own settings when there is none, and waits until
that construction has an outcome.  Meanwhile the slot may be emptied and filled again, and a newer
construction may end before an older one.

`Sharing.step` takes one such move, and a list of moves is one of the orders in which they can take
place.  Moves that are not possible change nothing: a construction ends once, and a call is answered
once, when its construction has ended.
-/

namespace ShellQuery

/-- What can happen to a provider whose callers bring settings of type `σ`: a call, the end of a
    construction, the answer to a waiting call, or a reset. -/
inductive ProviderMove (σ ρ : Type) where
  | call (settings : σ)
  | complete (construction : Nat) (result : ρ)
  | receive (waiter : Nat)
  | reset

/-- A call: the construction that it has joined, and its answer once it has one. -/
structure Waiter (ρ : Type) where
  construction : Nat
  answer : Option ρ

/-- A provider with the settings from which its constructions were started, and all calls so far. -/
structure Sharing (σ ρ : Type) where
  provider : Provider ρ
  sources : List σ
  waiters : List (Waiter ρ)

variable {σ ρ : Type}

/-- Answer a call with the outcome of its construction, once that is known. -/
def Waiter.receive (p : Provider ρ) (w : Waiter ρ) : Waiter ρ :=
  { w with answer := w.answer.or (p.outcome? w.construction) }

namespace ProviderMove

/-- The settings that a call brings. -/
@[simp] def settings? : ProviderMove σ ρ → Option σ
  | call settings => some settings
  | complete _ _ | receive _ | reset => none

/-- Whether the move is a reset. -/
@[simp] def isReset : ProviderMove σ ρ → Bool
  | reset => true
  | call _ | complete _ _ | receive _ => false

/-- The number of resets among moves. -/
def resets (moves : List (ProviderMove σ ρ)) : Nat :=
  moves.countP isReset

theorem resets_cons (first : ProviderMove σ ρ) (rest : List (ProviderMove σ ρ)) :
    resets (first :: rest) = resets rest + if first.isReset then 1 else 0 :=
  List.countP_cons

end ProviderMove

namespace Sharing

/-- Nobody has called. -/
def start : Sharing σ ρ :=
  ⟨.fresh, [], []⟩

/-- What a call has been answered, none while it waits. -/
def answer? (s : Sharing σ ρ) (i : Nat) : Option ρ :=
  s.waiters[i]?.bind Waiter.answer

/-- Take one move. -/
def step (s : Sharing σ ρ) : ProviderMove σ ρ → Sharing σ ρ
  | .call settings =>
    let (k, provider) := s.provider.call
    ⟨provider, s.sources ++ (if s.provider.slot.isNone then [settings] else []),
      s.waiters ++ [⟨k, none⟩]⟩
  | .complete k result => { s with provider := s.provider.complete k result }
  | .receive i => { s with waiters := s.waiters.modify i (Waiter.receive s.provider) }
  | .reset => { s with provider := s.provider.reset }

@[simp] theorem slot_step_call (s : Sharing σ ρ) (settings : σ) :
    (s.step (.call settings)).provider.slot = some s.provider.call.1 :=
  s.provider.slot_call

@[simp] theorem slot_step_complete (s : Sharing σ ρ) (k : Nat) (result : ρ) :
    (s.step (.complete k result)).provider.slot = s.provider.slot :=
  s.provider.slot_complete k result

@[simp] theorem provider_step_receive (s : Sharing σ ρ) (i : Nat) :
    (s.step (.receive i)).provider = s.provider := rfl

@[simp] theorem slot_step_reset (s : Sharing σ ρ) : (s.step .reset).provider.slot = none := rfl

/-- Take moves one after the other. -/
def run (s : Sharing σ ρ) (moves : List (ProviderMove σ ρ)) : Sharing σ ρ :=
  moves.foldl step s

/-- The number of calls among moves that find no construction in the slot. -/
def misses (s : Sharing σ ρ) : List (ProviderMove σ ρ) → Nat
  | [] => 0
  | first :: rest =>
    (if first.settings?.isSome && s.provider.slot.isNone then 1 else 0) + (s.step first).misses rest

end Sharing

end ShellQuery
