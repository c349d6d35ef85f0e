import ShellQuery.Proofs.Bson.Documents
import ShellQuery.Proofs.Resolver.Sent
import Mathlib.Data.List.Forall2

/-!
# Results of commands

A command that writes ends in a failure or in a summary, whatever the reply holds.  A `find` ends in
the documents that the reply delivers, all of them and in their order, whether they come in one list
or in batches.
-/

namespace ShellQuery

open Outcome

/-! ## Commands that write -/

namespace Reply

theorem summary_of_written {entries : Entries Json} {counter : String} {keys : List String}
    {v : Json} (h : written entries counter keys = .ok v) : ∃ s : WriteSummary, v = s.toJson := by
  unfold written at h
  split at h
  · cases h
  · cases h
    exact ⟨_, rfl⟩

end Reply

namespace Command

variable {c : Command} {op : Operation}

/-- A write that has not failed gives a summary. -/
theorem summary_of_resultOf {reply : Entries Json} {v : Json} (hop : c.operation? = some op)
    (hwrite : op.isWrite = true) (h : c.resultOf reply = .ok v) :
    ∃ s : WriteSummary, v = s.toJson := by
  cases c with
  | insert ns documents =>
    rw [resultOf] at h
    split at h
    · cases h
    · cases h
      exact ⟨_, rfl⟩
  | update | delete => exact Reply.summary_of_written h
  | find | aggregate | findAndModify =>
    -- a command that reads
    cases hop
    cases hwrite
  | eval | listDatabases => cases hop

theorem summary_of_result {reply v : Json} (hop : c.operation? = some op)
    (hwrite : op.isWrite = true) (h : c.result reply = .ok v) :
    ∃ s : WriteSummary, v = s.toJson := by
  unfold result at h
  split at h
  · cases h
  · exact summary_of_resultOf hop hwrite h

end Command

theorem Backend.summary_of_step {b : Backend} {c : Command} {op : Operation} {v : Json}
    (hop : c.operation? = some op) (hwrite : op.isWrite = true) (h : (b.step c).1 = .ok v) :
    ∃ s : WriteSummary, v = s.toJson := by
  simp only [step] at h
  split at h
  · exact Command.summary_of_result ((Command.operation?_stamp c b.ids).trans hop) hwrite h
  · -- without a reply only the list of databases succeeds
    unfold exhausted at h
    split at h
    · next hstamp =>
      have hnone := Command.operation?_stamp c b.ids
      rw [hstamp, hop] at hnone
      cases hnone
    · cases h

namespace Resolver

variable {r : Resolver} {text : String} {b : Backend} {call : Call}

/-- What a call that writes is answered with, without a command, is a summary as well. -/
theorem summary_of_answer {ns : Namespace} {v : Json}
    (h : operationRequest ns call = .ok (.answer v)) : ∃ s : WriteSummary, v = s.toJson := by
  -- of all calls only an insertion can be answered without a command
  obtain ⟨hop, -⟩ := operationRequest_eq_answer h
  simp only [operationRequest, hop] at h
  obtain ⟨_, -, ⟨-, hanswer⟩ | ⟨-, hsend⟩⟩ := Call.insertRequest_eq_ok_iff.mp h
  · cases hanswer
    exact ⟨_, rfl⟩
  · cases hsend

/-- A call that writes fails or gives a summary. -/
theorem summary_of_resolve {v : Json} (hparse : Query.parse text = .ok (.call call))
    (hwrite : call.operation.isWrite = true) (h : (r.resolve text b).1 = .ok v) :
    ∃ s : WriteSummary, v = s.toJson := by
  cases hrequest : r.request text with
  | error e =>
    rw [resolve_of_request_error b hrequest] at h
    cases h
  | ok request =>
    have hcall := hrequest
    rw [request_of_parse hparse] at hcall
    obtain ⟨database, -, hcall⟩ := callRequest_eq_ok_iff.mp hcall
    cases request with
    | answer w =>
      rw [resolve_of_answer hrequest] at h
      cases h
      exact summary_of_answer hcall
    | send c =>
      rw [resolve_of_send hrequest] at h
      exact Backend.summary_of_step (operation?_of_send hcall) hwrite (mapError_eq_ok_iff.mp h)

end Resolver

/-! ## Documents that are found -/

namespace Reply

/-- The values of a reply are read as the documents. -/
def Holds (values : List Json) (documents : List Document) : Prop :=
  List.Forall₂ (fun v fields => Bson.ofFields? (members v) = some fields) values documents

/-- The reply, which reports no failure, holds the documents, in one list or in batches. -/
inductive Delivers (reply : Json) : List Document → Prop where
  | list {documents : List Document} (hok : commandFailure? reply = none)
      (hlist : Entries.has (members reply) "batches" = false)
      (h : Holds (items (members reply) "docs") documents) : Delivers reply documents
  | batches {documents : List Document} {lists : List (List Json)}
      (hok : commandFailure? reply = none)
      (hbatches : Entries.has (members reply) "batches" = true)
      (hlists : items (members reply) "batches" = lists.map .arr)
      (h : Holds lists.flatten documents) : Delivers reply documents

theorem map_documentResult_of_holds {values : List Json} {documents : List Document}
    (h : Holds values documents) : values.map documentResult = documents.map Document.toJson := by
  induction h with
  | nil => rfl
  | cons hv _ ih => rw [List.map_cons, List.map_cons, ih, documentResult, hv, Document.toJson]

/-- Batches without a failure are read one behind the other. -/
theorem allBatches_lists (lists : List (List Json)) :
    allBatches (lists.map .arr) = .ok (lists.flatten.map documentResult) := by
  induction lists with
  | nil => rfl
  | cons values rest ih =>
    rw [List.map_cons, allBatches, ih, List.flatten_cons, List.map_append]
    rfl

theorem cursor_of_delivers {reply : Json} {documents : List Document}
    (h : Delivers reply documents) :
    cursor (members reply) = .ok (documents.map Document.toJson) := by
  cases h with
  | list _ hlist h => rw [cursor, hlist, if_neg Bool.false_ne_true, map_documentResult_of_holds h]
  | batches _ hbatches hlists h =>
    rw [cursor, hbatches, if_pos rfl, hlists, allBatches_lists, map_documentResult_of_holds h]

theorem Delivers.commandFailure? {reply : Json} {documents : List Document}
    (h : Delivers reply documents) : Reply.commandFailure? reply = none := by
  cases h with
  | list hok | batches hok => exact hok

theorem holds_of_convertAll {values : List Json} {documents : List Document}
    (h : Document.convertAll values = .ok documents) : Holds values documents := by
  refine (Document.convertAll_eq_ok_iff.mp h).imp fun v d hd => ?_
  obtain ⟨entries, rfl, hfields⟩ := Document.exists_fields_of_convert hd
  exact hfields

/-- All lists of converted documents can be delivered. -/
theorem delivers_of_convertAll {values : List Json} {documents : List Document}
    (h : Document.convertAll values = .ok documents) :
    Delivers (.obj [("docs", .arr values)]) documents :=
  .list rfl rfl (holds_of_convertAll h)

end Reply

/-- A `find` gives the documents of its reply. -/
theorem Resolver.resolve_find {r : Resolver} {text : String} {b : Backend} {ns : Namespace}
    {filter : Document} {projection : Option Document} {modifiers : Modifiers} {reply : Json}
    {rest : List Json} {documents : List Document}
    (hfind : .find ns filter projection modifiers ∈ r.commands text b)
    (hreplies : b.replies = reply :: rest) (h : Reply.Delivers reply documents) :
    (r.resolve text b).1 = .ok (.arr (documents.map Document.toJson)) := by
  have hrequest := (mem_commands_iff_of_not_insert (by simp [Command.operation?])).mp hfind
  have hresult : (b.step (.find ns filter projection modifiers)).1 =
      .ok (.arr (documents.map Document.toJson)) := by
    simp only [Backend.step, Command.stamp, hreplies, Command.result, h.commandFailure?,
      Command.resultOf, Reply.cursor_of_delivers h, Except.map]
  rw [resolve_of_send hrequest, hresult]
  rfl

end ShellQuery
