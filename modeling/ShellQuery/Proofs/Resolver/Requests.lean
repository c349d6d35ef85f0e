import ShellQuery.Proofs.Outcome
import ShellQuery.Resolver.Resolve

/-!
# What requests say

Each operation turns a call into a request by a chain of checks and conversions.  For each there is
one law here that says when the chain succeeds and which request it gives; what follows about
requests is derived from these laws alone.
-/

namespace ShellQuery

open Outcome

/-! ## Flags -/

/-- The flags that are true: the truth value, and each number but zero. -/
inductive Truthy : Json → Prop where
  | bool : Truthy (.bool true)
  | int {i : Int} (h : i ≠ 0) : Truthy (.int i)
  | float {d : Double} (h : d.isZero = false) : Truthy (.float d)

/-- The values that can be a flag. -/
inductive IsFlag : Json → Prop where
  | bool (b : Bool) : IsFlag (.bool b)
  | int (i : Int) : IsFlag (.int i)
  | float (d : Double) : IsFlag (.float d)
  | null : IsFlag .null

private theorem some_eq_some_iff {a b : Bool} {p : Prop} (hp : p ↔ a = true) :
    some a = some b ↔ (b = true ↔ p) := by
  rw [hp, Option.some.injEq]
  cases a <;> cases b <;> decide

/-- A flag is read from the values that can be one, and it is true for the true ones. -/
theorem flag?_eq_some_iff {v : Json} {b : Bool} :
    v.flag? = some b ↔ IsFlag v ∧ (b = true ↔ Truthy v) := by
  cases v with
  | bool a =>
    rw [and_iff_right (.bool a)]
    exact some_eq_some_iff ⟨fun h => by cases h; rfl, fun h => h ▸ .bool⟩
  | int i =>
    rw [and_iff_right (.int i)]
    exact some_eq_some_iff
      ⟨fun h => by cases h with | int h => exact bne_iff_ne.mpr h, fun h => .int (bne_iff_ne.mp h)⟩
  | float d =>
    rw [and_iff_right (.float d)]
    exact some_eq_some_iff
      ⟨fun h => by cases h with | float h => simp [h], fun h => .float (by simpa using h)⟩
  | null =>
    rw [and_iff_right .null]
    exact some_eq_some_iff ⟨nofun, nofun⟩
  | str s | arr items | obj entries => exact ⟨nofun, fun h => nomatch h.1⟩

theorem Truthy.isFlag {v : Json} (h : Truthy v) : IsFlag v := by
  cases h with
  | bool => exact .bool true
  | int => exact .int _
  | float => exact .float _

theorem flag?_eq_true_iff {v : Json} : v.flag? = some true ↔ Truthy v := by
  simp only [flag?_eq_some_iff, true_iff]
  exact ⟨And.right, fun h => ⟨h.isFlag, h⟩⟩

/-- A flag among options is false when it is missing. -/
theorem optionFlag_eq_ok_iff {options : Entries Json} {name : String} {b : Bool} :
    optionFlag options name = .ok b ↔
      Entries.find? options name = none ∧ b = false ∨
        ∃ v, Entries.find? options name = some v ∧ v.flag? = some b := by
  unfold optionFlag
  cases hfind : Entries.find? options name with
  | none => simp [eq_comm]
  | some v => cases hflag : v.flag? <;> simp [hflag]

/-- A flag among options is true only when it is written there. -/
theorem optionFlag_eq_true_iff {options : Entries Json} {name : String} :
    optionFlag options name = .ok true ↔
      ∃ v, Entries.find? options name = some v ∧ Truthy v := by
  simp [optionFlag_eq_ok_iff, flag?_eq_true_iff]

/-! ## Checks -/

theorem ensureUpdate_eq_ok_iff {update : Document} {u : Unit} :
    ensureUpdate update = .ok u ↔ update ≠ [] := by
  cases update <;> simp [ensureUpdate]

theorem ensureSigned64_eq_ok_iff {n : Option Nat} {u : Unit} :
    ensureSigned64 n = .ok u ↔ ∀ m ∈ n, m ≤ maxSigned64 := by
  cases n <;> simp [ensureSigned64]

namespace Call

variable {ns : Namespace} {call : Call} {request : Request}

theorem ensureAtMost_eq_ok_iff {most : Nat} {u : Unit} :
    call.ensureAtMost most = .ok u ↔ call.parameters.length ≤ most := by
  simp [ensureAtMost]

/-- A document among the parameters is the conversion of an object. -/
theorem document_eq_ok_iff {place : Nat} {what : String} {d : Document} :
    call.document place what = .ok d ↔
      ∃ fields, call.parameter? place = some (.obj fields) ∧
        Document.convert (.obj fields) = .ok d := by
  unfold document
  split
  · next fields hparameter => simp [hparameter]
  · next other hother hparameter =>
    -- a parameter of another shape
    have hobject : ∀ fields, other ≠ .obj fields := fun fields h => hother fields h
    simp [hparameter, hobject]
  · next hparameter => simp [hparameter]

/-! ## The operations -/

theorem findRequest_eq_ok_iff :
    call.findRequest ns = .ok request ↔
      call.parameters.length ≤ 2 ∧
      ∃ filter, call.findFilter = .ok filter ∧
      ∃ projection, call.findProjection = .ok projection ∧
      ∃ modifiers, call.modifiers = .ok modifiers ∧
        (∀ n ∈ modifiers.skip, n ≤ maxSigned64) ∧
        .send (.find ns filter projection modifiers) = request := by
  simp only [findRequest, bind_eq_ok_iff, ensureAtMost_eq_ok_iff, ensureSigned64_eq_ok_iff,
    exists_const, Except.ok.injEq]

theorem aggregateRequest_eq_ok_iff :
    call.aggregateRequest ns = .ok request ↔
      ∃ pipeline, Document.convertAll call.stages = .ok pipeline ∧
        .send (.aggregate ns pipeline) = request := by
  simp only [aggregateRequest, bind_eq_ok_iff, Except.ok.injEq]

theorem insertRequest_eq_ok_iff :
    call.insertRequest ns = .ok request ↔
      ∃ documents, call.insertDocuments = .ok documents ∧
        (documents = [] ∧ .answer WriteSummary.empty.toJson = request ∨
          documents ≠ [] ∧ .send (.insert ns documents) = request) := by
  simp only [insertRequest, bind_eq_ok_iff]
  apply exists_congr
  intro documents
  cases documents <;> simp

theorem updateRequest_eq_ok_iff :
    call.updateRequest ns = .ok request ↔
      call.parameters.length ≤ 3 ∧
      ∃ filter, call.document 0 "a filter document" = .ok filter ∧
      ∃ update, call.updateDocument = .ok update ∧
      ∃ options, call.updateOptions = .ok options ∧
      ∃ multi, optionFlag options "multi" = .ok multi ∧
      ∃ upsert, optionFlag options "upsert" = .ok upsert ∧
        update ≠ [] ∧ .send (.update ns filter update multi upsert) = request := by
  simp only [updateRequest, bind_eq_ok_iff, ensureAtMost_eq_ok_iff, ensureUpdate_eq_ok_iff,
    exists_const, Except.ok.injEq]

theorem removeRequest_eq_ok_iff :
    call.removeRequest ns = .ok request ↔
      call.parameters.length ≤ 2 ∧
        (call.parameters = [] ∧ .send (.delete ns [] false) = request ∨
          call.parameters ≠ [] ∧
          ∃ filter, call.document 0 "a filter document" = .ok filter ∧
          ∃ justOne, call.justOne = .ok justOne ∧ .send (.delete ns filter justOne) = request) := by
  simp only [removeRequest, bind_eq_ok_iff, ensureAtMost_eq_ok_iff, exists_const]
  cases hparameters : call.parameters with
  | nil => simp
  | cons first rest => simp [bind_eq_ok_iff]

end Call

namespace Specification

variable {ns : Namespace} {spec : Specification} {command : Command}

theorem updateCommand_eq_ok_iff {entries : Entries Json} :
    spec.updateCommand ns entries = .ok command ↔
      ∃ filter, spec.filter = .ok filter ∧
      ∃ update, UpdateSpec.convert (.obj entries) = .ok update ∧
      ∃ sort, Document.convertOptional spec.sort = .ok sort ∧
      ∃ fields, Document.convertOptional spec.fields = .ok fields ∧
        update ≠ [] ∧ (∀ n ∈ spec.maxTimeMs, n ≤ maxSigned64) ∧
        .findAndModify ns filter (.update update spec.returnNew spec.upsert spec.bypassValidation)
          ⟨sort, fields, spec.maxTimeMs, spec.collation⟩ = command := by
  simp only [updateCommand, bind_eq_ok_iff, ensureUpdate_eq_ok_iff, ensureSigned64_eq_ok_iff,
    exists_const, Except.ok.injEq]

theorem removeCommand_eq_ok_iff :
    spec.removeCommand ns = .ok command ↔
      ∃ filter, spec.filter = .ok filter ∧
      ∃ sort, Document.convertOptional spec.sort = .ok sort ∧
      ∃ fields, Document.convertOptional spec.fields = .ok fields ∧
        (∀ n ∈ spec.maxTimeMs, n ≤ maxSigned64) ∧
        .findAndModify ns filter .remove ⟨sort, fields, spec.maxTimeMs, spec.collation⟩ =
          command := by
  simp only [removeCommand, bind_eq_ok_iff, ensureSigned64_eq_ok_iff, exists_const,
    Except.ok.injEq]

/-- A specification gives a command when it asks for exactly one change. -/
theorem command_eq_ok_iff :
    spec.command ns = .ok command ↔
      (∃ entries, spec.updateEntries? = some entries ∧ spec.remove = false ∧
        spec.updateCommand ns entries = .ok command) ∨
      spec.updateEntries? = none ∧ spec.remove = true ∧ spec.removeCommand ns = .ok command := by
  unfold Specification.command
  cases spec.updateEntries? with
  | none => cases spec.remove <;> simp
  | some entries => cases spec.remove <;> simp

end Specification

theorem Call.findAndModifyRequest_eq_ok_iff {ns : Namespace} {call : Call} {request : Request} :
    call.findAndModifyRequest ns = .ok request ↔
      ∃ entries, call.parameters = [.obj entries] ∧
      ∃ spec, Specification.ofEntries entries = .ok spec ∧
      ∃ command, spec.command ns = .ok command ∧ .send command = request := by
  unfold findAndModifyRequest
  split
  · next entries hparameters =>
    simp [hparameters, bind_eq_ok_iff, mapError_eq_ok_iff]
  · next hparameters =>
    -- no parameter, one that is no object, or too many
    have hother : ∀ entries, call.parameters ≠ [.obj entries] :=
      fun entries h => hparameters entries h
    simp [hother]

/-! ## Queries -/

namespace Resolver

variable {r : Resolver} {request : Request}

/-- Only the want of a database keeps a query from having one. -/
theorem databaseFor_eq_error {named : Option String} {e : Error}
    (h : r.databaseFor named = .error e) : e = ParameterFault.error .noDatabase := by
  unfold databaseFor at h
  split at h
  · cases h
  · split at h
    · cases h
    · cases h
      rfl

theorem callRequest_eq_ok_iff {call : Call} :
    r.callRequest call = .ok request ↔
      ∃ database, r.databaseFor call.database = .ok database ∧
        operationRequest ⟨database, call.collection⟩ call = .ok request := by
  simp only [callRequest, bind_eq_ok_iff]

theorem scriptRequest_eq_ok_iff {script : Script} :
    r.scriptRequest script = .ok request ↔
      r.allowServerEval = true ∧
      ∃ database, r.databaseFor script.database = .ok database ∧
        .send (.eval database (ScriptText.program script.text)) = request := by
  unfold scriptRequest
  split
  · next hallow => simp [hallow, bind_eq_ok_iff]
  · next hallow => simp [hallow]

/-- A text that is read as a call asks for what the call asks for. -/
theorem request_of_parse {text : String} {call : Call}
    (hparse : Query.parse text = .ok (.call call)) : r.request text = r.callRequest call := by
  rw [Resolver.request, hparse]
  rfl

/-- A text asks for something when it is read as a call or a script that does. -/
theorem request_eq_ok_iff {text : String} :
    r.request text = .ok request ↔
      (∃ call, Query.parse text = .ok (.call call) ∧ r.callRequest call = .ok request) ∨
      ∃ script, Query.parse text = .ok (.script script) ∧ r.scriptRequest script = .ok request := by
  simp only [Resolver.request, bind_eq_ok_iff]
  constructor
  · rintro ⟨query, hparse, hrequest⟩
    cases query with
    | call call => exact .inl ⟨call, hparse, hrequest⟩
    | script script => exact .inr ⟨script, hparse, hrequest⟩
  · rintro (⟨call, hparse, hrequest⟩ | ⟨script, hparse, hrequest⟩)
    · exact ⟨.call call, hparse, hrequest⟩
    · exact ⟨.script script, hparse, hrequest⟩

end Resolver

/-! ## Kinds of commands -/

/-- The operation that a command carries out. -/
def Command.operation? : Command → Option Operation
  | find _ _ _ _ => some .find
  | aggregate _ _ => some .aggregate
  | insert _ _ => some .insert
  | update _ _ _ _ _ => some .update
  | delete _ _ _ => some .remove
  | findAndModify _ _ _ _ => some .findAndModify
  | eval _ _ => none
  | listDatabases => none

/-- The namespace on which a command works, none when it does not work on a collection. -/
def Command.namespace? : Command → Option Namespace
  | find ns _ _ _ | aggregate ns _ | insert ns _ | update ns _ _ _ _ | delete ns _ _
  | findAndModify ns _ _ _ => some ns
  | eval _ _ | listDatabases => none

namespace Command

/-- Ids for new documents leave a command one of the same operation. -/
theorem operation?_stamp (c : Command) (ids : IdSupply) :
    (c.stamp ids).1.operation? = c.operation? := by
  cases c <;> rfl

theorem namespace?_stamp (c : Command) (ids : IdSupply) :
    (c.stamp ids).1.namespace? = c.namespace? := by
  cases c <;> rfl

end Command

namespace Resolver

variable {r : Resolver}

/-- The command of a call carries out the operation of the call, on its namespace. -/
theorem aim_of_send {ns : Namespace} {call : Call} {c : Command}
    (h : operationRequest ns call = .ok (.send c)) :
    c.operation? = some call.operation ∧ c.namespace? = some ns := by
  unfold operationRequest at h
  split at h
  · next hop =>
    obtain ⟨-, _, -, _, -, _, -, -, hc⟩ := Call.findRequest_eq_ok_iff.mp h
    cases hc
    rw [hop]
    exact ⟨rfl, rfl⟩
  · next hop =>
    obtain ⟨_, -, spec, -, _, hcommand, hc⟩ := Call.findAndModifyRequest_eq_ok_iff.mp h
    cases hc
    rw [hop]
    -- the command of a specification is the same for both changes but for the change
    obtain ⟨_, -, -, hupdate⟩ | ⟨-, -, hremove⟩ := Specification.command_eq_ok_iff.mp hcommand
    · obtain ⟨_, -, _, -, _, -, _, -, -, -, rfl⟩ := Specification.updateCommand_eq_ok_iff.mp hupdate
      exact ⟨rfl, rfl⟩
    · obtain ⟨_, -, _, -, _, -, -, rfl⟩ := Specification.removeCommand_eq_ok_iff.mp hremove
      exact ⟨rfl, rfl⟩
  · next hop =>
    obtain ⟨_, -, hc⟩ := Call.aggregateRequest_eq_ok_iff.mp h
    cases hc
    rw [hop]
    exact ⟨rfl, rfl⟩
  · next hop =>
    obtain ⟨_, -, ⟨-, hc⟩ | ⟨-, hc⟩⟩ := Call.insertRequest_eq_ok_iff.mp h
    · -- inserting nothing is answered without a command
      cases hc
    · cases hc
      rw [hop]
      exact ⟨rfl, rfl⟩
  · next hop =>
    obtain ⟨-, _, -, _, -, _, -, _, -, _, -, -, hc⟩ := Call.updateRequest_eq_ok_iff.mp h
    cases hc
    rw [hop]
    exact ⟨rfl, rfl⟩
  · next hop =>
    obtain ⟨-, ⟨-, hc⟩ | ⟨-, _, -, _, -, hc⟩⟩ := Call.removeRequest_eq_ok_iff.mp h
    · cases hc
      rw [hop]
      exact ⟨rfl, rfl⟩
    · cases hc
      rw [hop]
      exact ⟨rfl, rfl⟩
  · cases h

/-- The command of a call carries out the operation of the call. -/
theorem operation?_of_send {ns : Namespace} {call : Call} {c : Command}
    (h : operationRequest ns call = .ok (.send c)) : c.operation? = some call.operation :=
  (aim_of_send h).1

/-- A command that carries out an operation is asked for by a call of that operation. -/
theorem call_of_request {text : String} {c : Command} {op : Operation}
    (h : r.request text = .ok (.send c)) (hop : c.operation? = some op) :
    ∃ call ns, Query.parse text = .ok (.call call) ∧ call.operation = op ∧
      operationRequest ns call = .ok (.send c) := by
  obtain ⟨call, hparse, hcall⟩ | ⟨script, -, hscript⟩ := request_eq_ok_iff.mp h
  · obtain ⟨database, -, hrequest⟩ := callRequest_eq_ok_iff.mp hcall
    rw [operation?_of_send hrequest] at hop
    exact ⟨call, ⟨database, call.collection⟩, hparse, Option.some.inj hop, hrequest⟩
  · -- a script is evaluated, which carries out no operation
    obtain ⟨-, database, -, hrequest⟩ := scriptRequest_eq_ok_iff.mp hscript
    cases hrequest
    cases hop

end Resolver

end ShellQuery
