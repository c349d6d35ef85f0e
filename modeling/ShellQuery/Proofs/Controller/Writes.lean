import ShellQuery.CommandLine.Run
import ShellQuery.Proofs.Backend.Results
import ShellQuery.Proofs.Query.Call
import ShellQuery.Proofs.Result.Summary

/-!
# Queries that write

A query that writes gives a summary, and asking for the summary gives the same one.  The two ways to
run such a query differ in the form of the answer alone: they send the same commands, and they fail
together and with the same error.  So it makes no difference whether the command line asks for the
summary of a write.
-/

namespace ShellQuery

open Outcome

namespace Controller

variable {c : Controller} {text : String} {b : Backend} {call : Call}

theorem shape_toJson (c : Controller) (s : WriteSummary) : c.shape s.toJson = s.toJson := by
  rw [shape, s.unmarked_toJson.normalize, ite_self]

/-- The resolver is all that a query and a summary ask of the backend. -/
theorem backend_update (c : Controller) (text : String) (b : Backend) :
    (c.update text b).2 = (c.query text b).2 := rfl

theorem summary_of_resolve {v : Json} (hparse : Query.parse text = .ok (.call call))
    (hwrite : call.operation.isWrite = true) (h : (c.resolve text b).1 = .ok v) :
    ∃ s : WriteSummary, v = s.toJson := by
  unfold resolve at h
  split at h
  · exact Resolver.summary_of_resolve hparse hwrite h
  · -- a closed controller answers nothing
    cases h

/-- A query that writes and its summary fail together or say the same. -/
theorem query_update_of_write (hparse : Query.parse text = .ok (.call call))
    (hwrite : call.operation.isWrite = true) :
    (∃ e, (c.query text b).1 = .error e ∧ (c.update text b).1 = .error e) ∨
      ∃ s : WriteSummary,
        (c.query text b).1 = .ok s.toJson ∧ (c.update text b).1 = .ok (some s) := by
  have hquery : (c.query text b).1 = (c.resolve text b).1.map c.shape := rfl
  have hupdate : (c.update text b).1 =
      (c.resolve text b).1.bind (WriteSummary.ofResult c.normalizeIds) := rfl
  rw [hquery, hupdate]
  -- both are made from one result of the backend
  cases hresolve : (c.resolve text b).1 with
  | error e => exact .inl ⟨e, rfl, rfl⟩
  | ok v =>
    obtain ⟨s, rfl⟩ := summary_of_resolve hparse hwrite hresolve
    refine .inr ⟨s, ?_, WriteSummary.ofResult_toJson c.normalizeIds s⟩
    rw [Except.map, shape_toJson]

/-- The command line prints for a write what the query gives, with and without the option that asks
    for a summary. -/
theorem execute_of_write (asSummary : Bool) (hparse : Query.parse text = .ok (.call call))
    (hwrite : call.operation.isWrite = true) :
    CommandLine.execute c asSummary text b = c.query text b := by
  have himplied : CommandLine.isWrite text = true := by
    rw [CommandLine.isWrite, hparse]
    exact hwrite
  have hexecute : CommandLine.execute c asSummary text b =
      ((c.update text b).1.map CommandLine.summaryJson, (c.update text b).2) := by
    rw [CommandLine.execute, himplied, Bool.or_true, if_pos rfl]
  rw [hexecute, backend_update]
  apply Prod.ext
  · -- the summary is printed in the form that the query gives it
    obtain ⟨e, hquery, hupdate⟩ | ⟨s, hquery, hupdate⟩ :=
      query_update_of_write (c := c) (b := b) hparse hwrite
    · rw [hquery, hupdate]
      rfl
    · rw [hquery, hupdate]
      rfl
  · rfl

/-! ## Main result -/

/-- For a query that writes, the query and its summary leave the same backend behind, fail with the
    same error or agree on the summary, and the command line gives the same for both.  A summary is
    read back from its result with and without object ids replaced. -/
theorem update_agrees_with_query (c : Controller) (b : Backend) :
    (∀ text call, Query.parse text = .ok (.call call) → call.operation.isWrite = true →
      (c.update text b).2 = (c.query text b).2 ∧
      ((∃ e, (c.query text b).1 = .error e ∧ (c.update text b).1 = .error e) ∨
        ∃ s : WriteSummary,
          (c.query text b).1 = .ok s.toJson ∧ (c.update text b).1 = .ok (some s)) ∧
      ∀ asSummary, CommandLine.execute c asSummary text b = c.query text b) ∧
    ∀ (s : WriteSummary) (normalizeIds : Bool),
      WriteSummary.ofResult normalizeIds s.toJson = .ok (some s) := by
  constructor
  · intro text call hparse hwrite
    exact ⟨backend_update c text b, query_update_of_write hparse hwrite,
      fun asSummary => execute_of_write asSummary hparse hwrite⟩
  · intro s normalizeIds
    exact WriteSummary.ofResult_toJson normalizeIds s

/-- A `remove` of two documents: the summary is the one that the query gives. -/
theorem update_agrees_on_remove :
    ∃ call, Query.parse "c.remove()" = .ok (.call call) ∧ call.operation.isWrite = true ∧
      ∃ s : WriteSummary, s.toJson = WriteSummary.toJson ⟨2, []⟩ ∧
        (Controller.update ⟨some ⟨some "d", false⟩, .fresh, true⟩ "c.remove()"
          (.fresh [.obj [("n", .int 2)]])).1 = .ok (some s) := by
  have hparse : Query.parse "c.remove()" = .ok (.call ⟨none, "c", .remove, [], ""⟩) := by rfl
  have hquery : (Controller.query ⟨some ⟨some "d", false⟩, .fresh, true⟩ "c.remove()"
      (.fresh [.obj [("n", .int 2)]])).1 = .ok (WriteSummary.toJson ⟨2, []⟩) := by rfl
  refine ⟨_, hparse, rfl, ?_⟩
  obtain ⟨e, herror, -⟩ | ⟨s, hs, hupdate⟩ :=
    ((update_agrees_with_query ⟨some ⟨some "d", false⟩, .fresh, true⟩
      (.fresh [.obj [("n", .int 2)]])).1 _ _ hparse rfl).2.1
  · rw [hquery] at herror
    cases herror
  · rw [hquery] at hs
    exact ⟨s, (Except.ok.inj hs).symm, hupdate⟩

end Controller

end ShellQuery
