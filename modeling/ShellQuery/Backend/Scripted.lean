import ShellQuery.Backend.Reply

/-!
# A backend with given replies

A backend has a list of replies, of which each command takes the next, and keeps the commands that
it was sent.  One step sends one command and reads one reply.
-/

namespace ShellQuery

/-- A backend: the replies to come, the commands so far and the ids that the client in front of it
    will make up. -/
structure Backend where
  replies : List Json
  sent : List Command
  ids : Command.IdSupply

namespace Backend

/-- A backend that has not been used; made-up ids are named by their numbers. -/
def fresh (replies : List Json) : Backend :=
  ⟨replies, [], ObjectId.fresh⟩

/-- The same client with other replies and without the commands so far. -/
def renew (b : Backend) (replies : List Json) : Backend :=
  { b with replies := replies, sent := [] }

/-- The reply for a command when none is left. -/
def exhausted : Command → Except BackendFailure Json
  | .listDatabases => .ok .null
  | _ => .error (.command 8000 "no scripted reply")

/-- The backend after a command has been sent and its reply, if there is one, taken. -/
def after (b : Backend) (command : Command) (ids : Command.IdSupply) : Backend :=
  ⟨b.replies.tail, b.sent ++ [command], ids⟩

/-- Send a command and read its reply. -/
def step (b : Backend) (command : Command) : Except BackendFailure Json × Backend :=
  let (stamped, ids) := command.stamp b.ids
  let outcome :=
    match b.replies with
    | reply :: _ => stamped.result reply
    | [] => exhausted stamped
  (outcome, b.after stamped ids)

/-- Exactly one command is added to those sent. -/
theorem sent_step (b : Backend) (command : Command) :
    (b.step command).2.sent = b.sent ++ [(command.stamp b.ids).1] := rfl

end Backend

end ShellQuery
