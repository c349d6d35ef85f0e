import ShellQuery.Backend.Command
import ShellQuery.Bson.Convert
import ShellQuery.Query.Call

/-!
# Reading the parameters of a call

What all operations have in common: documents among the parameters, flags and the number of
parameters that are allowed.
-/

namespace ShellQuery

/-! ## Requests -/

/-- What a query asks for: one command, or an answer that needs none. -/
inductive Request where
  | send (command : Command)
  | answer (value : Json)

/-- The largest number that fits 64 bits with a sign. -/
def maxSigned64 : Nat := 9223372036854775807

namespace Call

/-! ## Parameters -/

/-- The parameter at a place, counted from zero. -/
def parameter? (call : Call) (place : Nat) : Option Json :=
  call.parameters[place]?

/-- The document at a place among the parameters, counted from zero. -/
def document (call : Call) (place : Nat) (what : String) : Except Error Document :=
  match call.parameter? place with
  | some (.obj fields) => Document.convert (.obj fields)
  | some other => .error (ParameterFault.error (.unexpected call.operation what (place + 1) other))
  | none => .error (ParameterFault.error (.missing call.operation what (place + 1)))

/-- A call must not have more parameters than its operation takes. -/
def ensureAtMost (call : Call) (most : Nat) : Except Error Unit :=
  if most < call.parameters.length then
    .error (ParameterFault.error (.tooMany call.operation most call.parameters.length))
  else .ok ()

end Call

/-! ## Flags -/

/-- A flag is a truth value, a number, which is true unless zero, or `null`, which is false. -/
def Json.flag? : Json → Option Bool
  | bool b => some b
  | int i => some (i != 0)
  | float d => some (!d.isZero)
  | null => some false
  | _ => none

/-- The flag among options, false when it is not there. -/
def optionFlag (options : Entries Json) (name : String) : Except Error Bool :=
  match Entries.find? options name with
  | none => .ok false
  | some v =>
    match v.flag? with
    | some b => .ok b
    | none => .error (ParameterFault.error (.optionFlag name v))

/-- An update without any operator is turned down before it is sent. -/
def ensureUpdate (update : Document) : Except Error Unit :=
  if update.isEmpty then
    .error (.backend (.invalidArgument "update document must not be empty"))
  else .ok ()

/-- A number that the backend holds in 64 bits with a sign. -/
def ensureSigned64 (n : Option Nat) : Except Error Unit :=
  if n.any (maxSigned64 < ·) then .error (.backend (.other "the number does not fit 64 bits"))
  else .ok ()

end ShellQuery
