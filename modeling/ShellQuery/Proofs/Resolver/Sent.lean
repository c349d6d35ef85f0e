import ShellQuery.Proofs.Bson.Documents
import ShellQuery.Proofs.Resolver.Requests

/-!
# The commands of a query

`Resolver.commands` are the commands that resolving a query adds to those that the backend has
been sent.  They depend on the request of the query alone: a request to send gives its one
command, an answer and a failed request give none.

The main statement is `resolve_sends`: a query that is turned down has sent nothing, and one that
succeeds has sent one command, unless it inserts an empty list.
-/

namespace ShellQuery

open Outcome

/-! ## Errors -/

/-- Whether an error says that the query was turned down: it cannot be read, does not fit its
    operation, or holds a value that cannot be converted. -/
def Error.isRejection : Error → Bool
  | .query _ | .execution _ | .conversion _ => true
  | _ => false

/-- Whether the outcome of a query is that it was turned down. -/
def isRejected {α : Type} : Except Error α → Bool
  | .error e => e.isRejection
  | .ok _ => false

namespace Resolver

variable {r : Resolver} {text : String} {b : Backend}

/-! ## Sent commands -/

/-- The commands that resolving a query sends. -/
def commands (r : Resolver) (text : String) (b : Backend) : List Command :=
  (r.resolve text b).2.sent.drop b.sent.length

theorem resolve_of_answer {v : Json} (h : r.request text = .ok (.answer v)) :
    r.resolve text b = (.ok v, b) := by
  simp [resolve, h, perform]

theorem resolve_of_send {c : Command} (h : r.request text = .ok (.send c)) :
    r.resolve text b = ((b.step c).1.mapError .backend, (b.step c).2) := by
  simp [resolve, h, perform]

/-- Resolving a text depends on its request only. -/
theorem resolve_congr {text text' : String} (h : r.request text = r.request text') :
    r.resolve text b = r.resolve text' b := by
  rw [resolve, resolve, h]

theorem commands_eq_of_request {text text' : String} (h : r.request text = r.request text') :
    r.commands text b = r.commands text' b := by
  rw [commands, commands, resolve_congr h]

theorem commands_of_error {e : Error} (h : r.request text = .error e) :
    r.commands text b = [] := by
  simp [commands, resolve_of_request_error b h]

theorem commands_of_answer {v : Json} (h : r.request text = .ok (.answer v)) :
    r.commands text b = [] := by
  simp [commands, resolve_of_answer h]

/-- The one command of a request to send is sent as it stands, but for the ids of new documents. -/
theorem commands_of_send {c : Command} (h : r.request text = .ok (.send c)) :
    r.commands text b = [(c.stamp b.ids).1] := by
  simp [commands, resolve_of_send h, Backend.sent_step]

/-- A command is sent exactly when the query asks for it. -/
theorem mem_commands_iff {c : Command} :
    c ∈ r.commands text b ↔
      ∃ asked, r.request text = .ok (.send asked) ∧ (asked.stamp b.ids).1 = c := by
  cases hrequest : r.request text with
  | error e => simp [commands_of_error hrequest]
  | ok request =>
    cases request with
    | answer v => simp [commands_of_answer hrequest]
    | send asked => simp [commands_of_send hrequest, eq_comm]

/-- Only commands that insert change on their way to the backend. -/
theorem mem_commands_iff_of_not_insert {c : Command} (hc : c.operation? ≠ some .insert) :
    c ∈ r.commands text b ↔ r.request text = .ok (.send c) := by
  rw [mem_commands_iff]
  constructor
  · rintro ⟨asked, hrequest, rfl⟩
    -- the insertion stays one when its documents get their ids
    cases asked with
    | insert ns documents => exact absurd rfl hc
    | find | aggregate | update | delete | findAndModify | eval | listDatabases => exact hrequest
  · intro hrequest
    refine ⟨c, hrequest, ?_⟩
    cases c with
    | insert ns documents => exact absurd rfl hc
    | find | aggregate | update | delete | findAndModify | eval | listDatabases => rfl

/-- A command that carries out an operation is sent for a call of that operation. -/
theorem call_of_mem {c : Command} {op : Operation} (h : c ∈ r.commands text b)
    (hop : c.operation? = some op) :
    ∃ call, Query.parse text = .ok (.call call) ∧ call.operation = op := by
  obtain ⟨asked, hrequest, rfl⟩ := mem_commands_iff.mp h
  have hasked : asked.operation? = some op := (Command.operation?_stamp asked b.ids).symm.trans hop
  obtain ⟨call, -, hparse, hcall, -⟩ := call_of_request hrequest hasked
  exact ⟨call, hparse, hcall⟩

/-- The commands of a query come behind those that were sent before. -/
theorem sent_resolve (r : Resolver) (text : String) (b : Backend) :
    (r.resolve text b).2.sent = b.sent ++ r.commands text b := by
  cases hrequest : r.request text with
  | error e => simp [commands_of_error hrequest, resolve_of_request_error b hrequest]
  | ok request =>
    cases request with
    | answer v => simp [commands_of_answer hrequest, resolve_of_answer hrequest]
    | send asked => simp [commands_of_send hrequest, resolve_of_send hrequest, Backend.sent_step]

/-- A query that is turned down fails before there is a request. -/
theorem request_of_rejected (h : isRejected (r.resolve text b).1 = true) :
    ∃ e, r.request text = .error e := by
  cases hrequest : r.request text with
  | error e => exact ⟨e, rfl⟩
  | ok request =>
    -- with a request, only the backend can fail
    cases request with
    | answer v =>
      rw [resolve_of_answer hrequest] at h
      cases h
    | send asked =>
      rw [resolve_of_send hrequest] at h
      cases hstep : (b.step asked).1 with
      | ok v =>
        rw [hstep] at h
        cases h
      | error failure =>
        rw [hstep] at h
        cases h

end Resolver

/-! ## Inserting nothing -/

/-- There is nothing to insert exactly when the one parameter is the empty list. -/
theorem Call.insertDocuments_eq_nil_iff {call : Call} :
    call.insertDocuments = .ok [] ↔ call.parameters = [.arr []] := by
  constructor
  · intro h
    unfold insertDocuments at h
    split at h
    · next items hparameters =>
      have hlength := Document.length_of_convertAll h
      rw [hparameters, List.length_eq_zero_iff.mp hlength.symm]
    · -- a single document is inserted as a list of one
      have hlength := Document.length_of_convertAll h
      cases hlength
    · cases h
  · intro h
    simp [insertDocuments, h, Document.convertAll]

/-- The text is the insertion of an empty list. -/
def Query.InsertsNothing (text : String) : Prop :=
  ∃ call, Query.parse text = .ok (.call call) ∧ call.operation = .insert ∧
    call.parameters = [.arr []]

namespace Resolver

variable {r : Resolver} {text : String} {b : Backend}

/-- Only the insertion of an empty list is answered without a command. -/
theorem operationRequest_eq_answer {ns : Namespace} {call : Call} {v : Json}
    (h : operationRequest ns call = .ok (.answer v)) :
    call.operation = .insert ∧ call.parameters = [.arr []] := by
  unfold operationRequest at h
  split at h
  · obtain ⟨-, _, -, _, -, _, -, -, hrequest⟩ := Call.findRequest_eq_ok_iff.mp h
    cases hrequest
  · obtain ⟨_, -, _, -, _, -, hrequest⟩ := Call.findAndModifyRequest_eq_ok_iff.mp h
    cases hrequest
  · obtain ⟨_, -, hrequest⟩ := Call.aggregateRequest_eq_ok_iff.mp h
    cases hrequest
  · next hop =>
    obtain ⟨documents, hdocuments, ⟨rfl, -⟩ | ⟨-, hrequest⟩⟩ := Call.insertRequest_eq_ok_iff.mp h
    · exact ⟨hop, Call.insertDocuments_eq_nil_iff.mp hdocuments⟩
    · cases hrequest
  · obtain ⟨-, _, -, _, -, _, -, _, -, _, -, -, hrequest⟩ := Call.updateRequest_eq_ok_iff.mp h
    cases hrequest
  · obtain ⟨-, ⟨-, hrequest⟩ | ⟨-, _, -, _, -, hrequest⟩⟩ := Call.removeRequest_eq_ok_iff.mp h
    · cases hrequest
    · cases hrequest
  · cases h

/-- The request of a text is an answer exactly when the text inserts an empty list. -/
theorem insertsNothing_iff {request : Request} (h : r.request text = .ok request) :
    Query.InsertsNothing text ↔ ∃ v, request = .answer v := by
  constructor
  · rintro ⟨call, hparse, hop, hparameters⟩
    obtain ⟨call', hparse', hcall⟩ | ⟨script, hparse', -⟩ := request_eq_ok_iff.mp h
    · -- the two calls of the text are the same
      rw [hparse] at hparse'
      cases hparse'
      obtain ⟨database, -, hrequest⟩ := callRequest_eq_ok_iff.mp hcall
      simp only [operationRequest, hop] at hrequest
      obtain ⟨documents, hdocuments, hrequest⟩ := Call.insertRequest_eq_ok_iff.mp hrequest
      rw [Call.insertDocuments_eq_nil_iff.mpr hparameters] at hdocuments
      cases hdocuments
      obtain ⟨-, rfl⟩ | ⟨hne, -⟩ := hrequest
      · exact ⟨_, rfl⟩
      · exact absurd rfl hne
    · -- a call is no script
      rw [hparse] at hparse'
      cases hparse'
  · rintro ⟨v, rfl⟩
    obtain ⟨call, hparse, hcall⟩ | ⟨script, -, hscript⟩ := request_eq_ok_iff.mp h
    · obtain ⟨database, -, hrequest⟩ := callRequest_eq_ok_iff.mp hcall
      obtain ⟨hop, hparameters⟩ := operationRequest_eq_answer hrequest
      exact ⟨call, hparse, hop, hparameters⟩
    · obtain ⟨-, database, -, hrequest⟩ := scriptRequest_eq_ok_iff.mp hscript
      cases hrequest

/-! ## Main result -/

theorem commands_length_le_one (r : Resolver) (text : String) (b : Backend) :
    (r.commands text b).length ≤ 1 := by
  cases hrequest : r.request text with
  | error e => simp [commands_of_error hrequest]
  | ok request =>
    cases request with
    | answer v => simp [commands_of_answer hrequest]
    | send asked => simp [commands_of_send hrequest]

/-- Resolving sends at most one command.  If it fails because the query is turned down, it has sent
    none and the backend is as it was; if it succeeds, it has sent one, or none when the query
    inserts an empty list. -/
theorem resolve_sends (r : Resolver) (text : String) (b : Backend) :
    (r.resolve text b).2.sent = b.sent ++ r.commands text b ∧
      (r.commands text b).length ≤ 1 ∧
      (isRejected (r.resolve text b).1 = true →
        r.commands text b = [] ∧ (r.resolve text b).2 = b) ∧
      ∀ v, (r.resolve text b).1 = .ok v →
        (Query.InsertsNothing text → r.commands text b = []) ∧
        (¬ Query.InsertsNothing text → (r.commands text b).length = 1) := by
  refine ⟨sent_resolve r text b, commands_length_le_one r text b, ?_, ?_⟩
  · intro hrejected
    obtain ⟨e, hrequest⟩ := request_of_rejected hrejected
    exact ⟨commands_of_error hrequest, by rw [resolve_of_request_error b hrequest]⟩
  · -- a query that succeeds has a request, and whether that is an answer decides
    intro v hv
    cases hrequest : r.request text with
    | error e =>
      rw [resolve_of_request_error b hrequest] at hv
      cases hv
    | ok request =>
      rw [insertsNothing_iff hrequest]
      cases request with
      | answer w => exact ⟨fun _ => commands_of_answer hrequest, fun h => absurd ⟨w, rfl⟩ h⟩
      | send asked =>
        rw [commands_of_send hrequest]
        refine ⟨?_, fun _ => rfl⟩
        rintro ⟨w, hw⟩
        cases hw

/-- An id that cannot be converted, late in a batch, keeps the whole batch from being sent. -/
theorem resolve_late_bad_element :
    isRejected (Resolver.resolve ⟨some "d", false⟩
        "c.insert([\x7b\x7d, \x7b\"b\": \x7b\"$oid\": \"x\"\x7d\x7d])" (.fresh [])).1 = true ∧
      Resolver.commands ⟨some "d", false⟩
        "c.insert([\x7b\x7d, \x7b\"b\": \x7b\"$oid\": \"x\"\x7d\x7d])" (.fresh []) = [] := by
  have hrejected : isRejected (Resolver.resolve ⟨some "d", false⟩
      "c.insert([\x7b\x7d, \x7b\"b\": \x7b\"$oid\": \"x\"\x7d\x7d])" (.fresh [])).1 = true := by
    decide +kernel
  exact ⟨hrejected, ((resolve_sends _ _ _).2.2.1 hrejected).1⟩

end Resolver

end ShellQuery
