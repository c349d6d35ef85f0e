import ShellQuery.Proofs.Controller.Writes

/-!
# Summaries that cannot be drawn

The summary of a query is drawn from its result, when the command has been carried out.  A result
that comes from the store may have a property of a summary that holds something else; then there is
no summary, and the query looks as if it had been turned down.  In all other cases a query that is
turned down has left the backend alone.
-/

namespace ShellQuery

/-! ## Results without a summary -/

/-- The value is an object in which a property of a summary holds what it never holds there. -/
def Json.SpoilsSummary (v : Json) : Prop :=
  ∃ entries, v = .obj entries ∧
    ((∃ count, Entries.find? entries "manipulationCount" = some count ∧
        WriteSummary.count? count = none) ∨
      ∃ keys, Entries.find? entries "affectedKeys" = some keys ∧ WriteSummary.texts? keys = none)

namespace WriteSummary

variable {entries : Entries Json}

/-- An entry cannot be read when it is there and has another shape. -/
theorem readEntry_eq_none_iff {α : Type} {name : String} {default : α} {read : Json → Option α} :
    readEntry entries name default read = none ↔
      ∃ v, Entries.find? entries name = some v ∧ read v = none := by
  unfold readEntry
  cases hfind : Entries.find? entries name with
  | none => simp
  | some v => simp

theorem ofEntries?_eq_none_iff : ofEntries? entries = none ↔ Json.SpoilsSummary (.obj entries) := by
  have hspoils : Json.SpoilsSummary (.obj entries) ↔
      readEntry entries "manipulationCount" 0 count? = none ∨
        readEntry entries "affectedKeys" [] texts? = none := by
    simp [Json.SpoilsSummary, readEntry_eq_none_iff]
  rw [hspoils, ofEntries?]
  -- both entries are read, one after the other
  cases readEntry entries "manipulationCount" 0 count? with
  | none => simp
  | some count => cases readEntry entries "affectedKeys" [] texts? <;> simp

/-- An object without both entries has a summary, whatever else it holds. -/
theorem has_of_spoilsSummary (h : Json.SpoilsSummary (.obj entries)) :
    (Entries.has entries "manipulationCount" || Entries.has entries "affectedKeys") = true := by
  obtain ⟨_, heq, h⟩ := h
  cases heq
  rcases h with ⟨count, hfind, -⟩ | ⟨keys, hfind, -⟩
  · simp [Entries.has, hfind]
  · simp [Entries.has, hfind]

/-- A sum of counters is never turned down: it is there, or it breaks off. -/
theorem isRejected_countersSum (entries : Entries Json) :
    isRejected ((countersSum entries).mapError Fault.reported) = false := by
  rw [countersSum_eq, fit]
  split <;> rfl

theorem isRejected_ofObject_iff :
    isRejected ((ofObject entries).mapError Fault.reported) = true ↔
      Json.SpoilsSummary (.obj entries) := by
  constructor
  · intro h
    unfold ofObject at h
    split at h
    · cases hread : ofEntries? entries with
      | none => exact ofEntries?_eq_none_iff.mp hread
      | some s =>
        rw [hread] at h
        cases h
    · have hsum := isRejected_countersSum entries
      cases hcount : countersSum entries with
      | ok count =>
        rw [hcount] at h
        cases h
      | error e =>
        rw [hcount] at h hsum
        exact absurd h (Bool.eq_false_iff.mp hsum)
  · intro h
    rw [ofObject, if_pos (has_of_spoilsSummary h), ofEntries?_eq_none_iff.mpr h]
    rfl

/-- No summary can be drawn from a result exactly when its plain form spoils one. -/
theorem isRejected_ofResult_iff {normalizeIds : Bool} {v : Json} :
    isRejected (ofResult normalizeIds v) = true ↔
      (if normalizeIds then v.normalize .idOnly else v).SpoilsSummary := by
  cases hnull : v.isNull with
  | true =>
    have hv : v = .null := by
      cases v with
      | null => rfl
      | bool | int | float | str | arr | obj => cases hnull
    subst hv
    rw [Json.normalize, ite_self]
    constructor
    · intro h
      cases h
    · rintro ⟨entries, heq, -⟩
      cases heq
  | false =>
    rw [ofResult, draw, hnull, if_neg Bool.false_ne_true]
    cases (if normalizeIds then v.normalize .idOnly else v) with
    | obj entries =>
      rw [← isRejected_ofObject_iff]
      show isRejected (((ofObject entries).map some).mapError Fault.reported) = true ↔
        isRejected ((ofObject entries).mapError Fault.reported) = true
      cases ofObject entries <;> rfl
    | null | bool | int | float | str | arr =>
      -- a value that is no object has the empty summary
      constructor
      · intro h
        cases h
      · rintro ⟨entries, heq, -⟩
        cases heq

/-- A summary itself is no such value. -/
theorem not_spoilsSummary_toJson (s : WriteSummary) : ¬ s.toJson.SpoilsSummary := by
  intro h
  rw [toJson_eq_obj, ← ofEntries?_eq_none_iff, ofEntries?_entries] at h
  cases h

end WriteSummary

/-! ## Commands that give a value of the store -/

/-- Whether the result of a command is a value of the store as it is, and neither a list of
    documents nor a summary. -/
def Command.givesStored : Command → Bool
  | aggregate _ _ | findAndModify _ _ _ _ | eval _ _ => true
  | find _ _ _ _ | insert _ _ | update _ _ _ _ _ | delete _ _ _ | listDatabases => false

/-- A `find` gives a list. -/
theorem Backend.list_of_step_find {b : Backend} {ns : Namespace} {filter : Document}
    {projection : Option Document} {modifiers : Modifiers} {v : Json}
    (h : (b.step (.find ns filter projection modifiers)).1 = .ok v) : ∃ items, v = .arr items := by
  simp only [step, Command.stamp] at h
  split at h
  · unfold Command.result at h
    split at h
    · cases h
    · rw [Command.resultOf] at h
      unfold Except.map at h
      split at h
      · cases h
      · next items _ =>
        cases h
        exact ⟨items, rfl⟩
  · cases h

namespace Resolver

variable {r : Resolver} {text : String} {b : Backend}

/-- A result that is neither a list nor a summary comes from a command that gives a value of the
    store. -/
theorem givesStored_of_resolve {v : Json} (h : (r.resolve text b).1 = .ok v)
    (hlist : ∀ items, v ≠ .arr items) (hsummary : ∀ s : WriteSummary, v ≠ s.toJson) :
    ∃ command, r.commands text b = [command] ∧ command.givesStored = true := by
  cases hrequest : r.request text with
  | error e =>
    rw [resolve_of_request_error b hrequest] at h
    cases h
  | ok request =>
    obtain ⟨call, -, hcall⟩ | ⟨script, -, hscript⟩ := request_eq_ok_iff.mp hrequest
    · obtain ⟨database, -, hask⟩ := callRequest_eq_ok_iff.mp hcall
      cases request with
      | answer w =>
        rw [resolve_of_answer hrequest] at h
        cases h
        obtain ⟨s, hs⟩ := summary_of_answer hask
        exact absurd hs (hsummary s)
      | send command =>
        refine ⟨_, commands_of_send hrequest, ?_⟩
        rw [resolve_of_send hrequest] at h
        have hstep := Outcome.mapError_eq_ok_iff.mp h
        cases command with
        | find =>
          obtain ⟨items, hitems⟩ := Backend.list_of_step_find hstep
          exact absurd hitems (hlist items)
        | insert | update | delete =>
          -- the operations that write give a summary
          obtain ⟨s, hs⟩ := Backend.summary_of_step rfl rfl hstep
          exact absurd hs (hsummary s)
        | aggregate | findAndModify | eval => rfl
        | listDatabases => cases operation?_of_send hask
    · obtain ⟨-, database, -, hask⟩ := scriptRequest_eq_ok_iff.mp hscript
      cases hask
      exact ⟨_, commands_of_send hrequest, rfl⟩

end Resolver

namespace Controller

variable {c : Controller} {text : String} {b : Backend}

/-- Asking for a summary is turned down when the query is, and when its result spoils a summary. -/
theorem isRejected_update_iff :
    isRejected (c.update text b).1 = true ↔ isRejected (c.query text b).1 = true ∨
      ∃ v, (c.query text b).1 = .ok v ∧ v.SpoilsSummary := by
  have hquery : (c.query text b).1 = (c.resolve text b).1.map c.shape := rfl
  have hupdate : (c.update text b).1 =
      (c.resolve text b).1.bind (WriteSummary.ofResult c.normalizeIds) := rfl
  rw [hquery, hupdate]
  cases (c.resolve text b).1 with
  | error e => simp [Except.bind, Except.map, isRejected]
  | ok v =>
    simpa [Except.bind, Except.map, isRejected, shape] using WriteSummary.isRejected_ofResult_iff

/-- A query that is turned down leaves the backend alone. -/
theorem backend_of_rejected_query (h : isRejected (c.query text b).1 = true) :
    (c.query text b).2 = b := by
  have hquery : (c.query text b).1 = (c.resolve text b).1.map c.shape := rfl
  have hresolve : isRejected (c.resolve text b).1 = true := by
    rw [hquery] at h
    cases hresult : (c.resolve text b).1 with
    | error e =>
      rw [hresult] at h
      exact h
    | ok v =>
      rw [hresult] at h
      cases h
  show (c.resolve text b).2 = b
  unfold resolve at hresolve ⊢
  cases hr : c.resolver with
  | none => rfl
  | some r =>
    rw [hr] at hresolve
    obtain ⟨e, hrequest⟩ := Resolver.request_of_rejected hresolve
    simp only [Resolver.resolve_of_request_error b hrequest]

/-- A result that spoils a summary is the value that a command has given. -/
theorem givesStored_of_query {v : Json} (h : (c.query text b).1 = .ok v) (hv : v.SpoilsSummary) :
    ∃ r command, c.resolver = some r ∧ r.commands text b = [command] ∧
      command.givesStored = true := by
  have hquery : (c.query text b).1 = (c.resolve text b).1.map c.shape := rfl
  rw [hquery] at h
  cases hresult : (c.resolve text b).1 with
  | error e =>
    rw [hresult] at h
    cases h
  | ok w =>
    rw [hresult] at h
    cases h
    -- lists and summaries keep their form when object ids are replaced
    have hlist : ∀ items, w ≠ .arr items := by
      rintro items rfl
      obtain ⟨entries, heq, -⟩ := hv
      unfold shape at heq
      split at heq
      · rw [Json.normalize] at heq
        cases heq
      · cases heq
    have hsummary : ∀ s : WriteSummary, w ≠ s.toJson := by
      rintro s rfl
      rw [shape_toJson] at hv
      exact s.not_spoilsSummary_toJson hv
    unfold resolve at hresult
    cases hr : c.resolver with
    | none =>
      rw [hr] at hresult
      cases hresult
    | some r =>
      rw [hr] at hresult
      obtain ⟨command, hcommands, hstored⟩ :=
        Resolver.givesStored_of_resolve hresult hlist hsummary
      exact ⟨r, command, rfl, hcommands, hstored⟩

/-! ## Main result -/

/-- Asking for a summary is turned down in two cases: the query itself is turned down, and the
    backend is as it was; or the query succeeds with a value that spoils a summary.  Such a value is
    what an `aggregate`, a `findAndModify` or a script has given. -/
theorem update_turned_down_iff (c : Controller) (text : String) (b : Backend) :
    (isRejected (c.update text b).1 = true ↔
      (isRejected (c.query text b).1 = true ∧ (c.update text b).2 = b) ∨
        ∃ v, (c.query text b).1 = .ok v ∧ v.SpoilsSummary) ∧
    ∀ v, (c.query text b).1 = .ok v → v.SpoilsSummary →
      ∃ r command, c.resolver = some r ∧ r.commands text b = [command] ∧
        command.givesStored = true := by
  constructor
  · rw [isRejected_update_iff, backend_update]
    constructor
    · rintro (hquery | hspoils)
      · exact .inl ⟨hquery, backend_of_rejected_query hquery⟩
      · exact .inr hspoils
    · rintro (⟨hquery, -⟩ | hspoils)
      · exact .inl hquery
      · exact .inr hspoils
  · intro v hv hspoils
    exact givesStored_of_query hv hspoils

/-- A group whose keys are no texts is what an `aggregate` gives, and it has no summary. -/
theorem update_turned_down_on_group :
    isRejected (Controller.update ⟨some ⟨some "d", false⟩, .fresh, true⟩ "c.aggregate()"
        (.fresh [.obj [("docs", .arr [.obj [("affectedKeys", .arr [.null])]])]])).1 = true ∧
      ∃ command, Resolver.commands ⟨some "d", false⟩ "c.aggregate()"
        (.fresh [.obj [("docs", .arr [.obj [("affectedKeys", .arr [.null])]])]]) = [command] ∧
        command.givesStored = true := by
  have hquery : (Controller.query ⟨some ⟨some "d", false⟩, .fresh, true⟩ "c.aggregate()"
      (.fresh [.obj [("docs", .arr [.obj [("affectedKeys", .arr [.null])]])]])).1 =
        .ok (.obj [("affectedKeys", .arr [.null])]) := by rfl
  have hspoils : (Json.obj [("affectedKeys", .arr [.null])]).SpoilsSummary :=
    ⟨_, rfl, .inr ⟨_, rfl, rfl⟩⟩
  obtain ⟨hiff, hgives⟩ := update_turned_down_iff ⟨some ⟨some "d", false⟩, .fresh, true⟩
    "c.aggregate()" (.fresh [.obj [("docs", .arr [.obj [("affectedKeys", .arr [.null])]])]])
  obtain ⟨r, command, hr, hcommands, hstored⟩ := hgives _ hquery hspoils
  cases hr
  exact ⟨hiff.mpr (.inr ⟨_, hquery, hspoils⟩), command, hcommands, hstored⟩

/-- The document that a `findAndModify` has removed has a text for a count: the removal has been
    sent and the backend has carried it out, and the answer is that of a query turned down. -/
theorem update_turned_down_after_removal :
    (∃ options, Resolver.commands ⟨some "d", false⟩ "c.findAndModify(\x7b\"remove\":true\x7d)"
        (.fresh [.obj [("value", .obj [("manipulationCount", .str "2")])]]) =
          [.findAndModify ⟨"d", "c"⟩ [] .remove options]) ∧
      (Controller.query ⟨some ⟨some "d", false⟩, .fresh, false⟩
        "c.findAndModify(\x7b\"remove\":true\x7d)"
        (.fresh [.obj [("value", .obj [("manipulationCount", .str "2")])]])).1 =
          .ok (.obj [("manipulationCount", .str "2")]) ∧
      isRejected (Controller.update ⟨some ⟨some "d", false⟩, .fresh, false⟩
        "c.findAndModify(\x7b\"remove\":true\x7d)"
        (.fresh [.obj [("value", .obj [("manipulationCount", .str "2")])]])).1 = true := by
  have htokens : Json.tokens "[\x7b\"remove\":true\x7d]".toList =
      some [.openArray, .openObject, .leaf (.str "remove"), .colon, .leaf (.bool true),
        .closeObject, .closeArray] := by rfl
  have hparse := Query.parse_of_block .findAndModify "c.findAndModify(\x7b\"remove\":true\x7d)"
    "\x7b\"remove\":true\x7d" (by decide) htokens rfl
  have hrequest : Resolver.request ⟨some "d", false⟩ "c.findAndModify(\x7b\"remove\":true\x7d)" =
      .ok (.send (.findAndModify ⟨"d", "c"⟩ [] .remove ⟨none, none, none, none⟩)) :=
    (Resolver.request_of_parse hparse).trans rfl
  refine ⟨⟨_, Resolver.commands_of_send hrequest⟩, ?_, ?_⟩
  · simp only [query, resolve, Resolver.resolve_of_send hrequest]
    rfl
  · simp only [update, resolve, Resolver.resolve_of_send hrequest]
    rfl

end Controller

end ShellQuery
