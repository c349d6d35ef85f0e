import ShellQuery.Proofs.Bson.Documents
import ShellQuery.Proofs.Resolver.Sent

/-!
# Updates that are sent

Two operations send updates: `update` and `findAndModify`.  Both bring the written update into its
normal form first, which holds operators only, and conversion keeps names.  So no command replaces
a whole document, whatever the query writes, and an update reaches no more documents than its
options ask for: `update_commands`.
-/

namespace ShellQuery

open Outcome

/-! ## Operators -/

namespace UpdateSpec

/-- Every name of the document is one of an operator. -/
def OperatorsOnly (update : Document) : Prop :=
  ∀ name ∈ Entries.keys update, isOperator name = true

/-- The normal form of an update has operators only. -/
theorem isOperator_of_mem_normalForm {spec : Entries Json} {name : String}
    (h : name ∈ Entries.keys (normalForm spec)) : isOperator name = true := by
  have hoperators : ∀ name ∈ Entries.keys (operators spec), isOperator name = true := by
    intro name hname
    obtain ⟨entry, hentry, rfl⟩ := List.mem_map.mp hname
    have hfilter := (List.mem_filter.mp hentry).2
    exact (Bool.and_eq_true_iff.mp hfilter).1
  simp only [normalForm] at h
  split at h
  · -- the fields that are no operators stand together under `$set`
    rw [Entries.keys, List.map_append, List.mem_append] at h
    obtain h | h := h
    · exact hoperators name h
    · obtain rfl : name = "$set" := List.mem_singleton.mp h
      decide
  · exact hoperators name h

/-- An update is converted to a document of operators. -/
theorem operatorsOnly_of_convert {v : Json} {update : Document} (h : convert v = .ok update) :
    OperatorsOnly update := by
  unfold convert at h
  split at h
  · -- conversion changes values and keeps names
    intro name hname
    rw [Document.keys_of_convert h] at hname
    exact isOperator_of_mem_normalForm hname
  · cases h

end UpdateSpec

/-! ## The options of an update -/

namespace Call

variable {call : Call}

/-- The third parameter is an object in which the flag is true. -/
def AsksFor (call : Call) (name : String) : Prop :=
  ∃ options v, call.parameter? 2 = some (.obj options) ∧ Entries.find? options name = some v ∧
    Truthy v

/-- The flags of an update are true when the third parameter says so, and only then. -/
theorem optionFlag_eq_true_iff_asksFor {options : Entries Json} {name : String}
    (h : call.updateOptions = .ok options) :
    optionFlag options name = .ok true ↔ call.AsksFor name := by
  rw [optionFlag_eq_true_iff]
  unfold updateOptions at h
  unfold AsksFor
  split at h
  · next written hparameter =>
    cases h
    simp [hparameter]
  · next hparameter =>
    -- `null` as well as no parameter stand for no options
    cases h
    simp [hparameter, Entries.find?]
  · next hparameter =>
    cases h
    simp [hparameter, Entries.find?]
  · cases h

/-- The update of an update command is converted from the second parameter. -/
theorem operatorsOnly_of_updateDocument {update : Document}
    (h : call.updateDocument = .ok update) : UpdateSpec.OperatorsOnly update := by
  unfold updateDocument at h
  split at h
  · exact UpdateSpec.operatorsOnly_of_convert h
  · cases h

end Call

/-! ## Commands -/

namespace Resolver

variable {r : Resolver} {text : String} {b : Backend}

/-- What an update command has from the call that asks for it: the filter is its first parameter,
    and the flags are those that its third parameter writes. -/
structure UpdateAsked (call : Call) (filter update : Document) (multi upsert : Bool) : Prop where
  operation : call.operation = .update
  filter : ∃ first, call.parameter? 0 = some first ∧ Document.convert first = .ok filter
  operators : UpdateSpec.OperatorsOnly update
  multi : multi = true ↔ call.AsksFor "multi"
  upsert : upsert = true ↔ call.AsksFor "upsert"

private theorem eq_true_iff_of_flag {options : Entries Json} {name : String} {flag : Bool}
    (h : optionFlag options name = .ok flag) :
    flag = true ↔ optionFlag options name = .ok true := by
  rw [h]
  exact ⟨congrArg Except.ok, Except.ok.inj⟩

theorem updateAsked_of_mem {ns : Namespace} {filter update : Document} {multi upsert : Bool}
    (h : .update ns filter update multi upsert ∈ r.commands text b) :
    ∃ call, Query.parse text = .ok (.call call) ∧ UpdateAsked call filter update multi upsert := by
  rw [mem_commands_iff_of_not_insert (by simp [Command.operation?])] at h
  obtain ⟨call, ns', hparse, hop, hrequest⟩ := call_of_request h rfl
  simp only [operationRequest, hop] at hrequest
  obtain ⟨-, filter', hfilter, update', hupdate, options, hoptions, multi', hmulti, upsert',
    hupsert, -, hcommand⟩ := Call.updateRequest_eq_ok_iff.mp hrequest
  cases hcommand
  obtain ⟨fields, hparameter, hconvert⟩ := Call.document_eq_ok_iff.mp hfilter
  refine ⟨call, hparse, hop, ⟨.obj fields, hparameter, hconvert⟩, ?_, ?_, ?_⟩
  · exact Call.operatorsOnly_of_updateDocument hupdate
  · rw [eq_true_iff_of_flag hmulti, Call.optionFlag_eq_true_iff_asksFor hoptions]
  · rw [eq_true_iff_of_flag hupsert, Call.optionFlag_eq_true_iff_asksFor hoptions]

theorem operatorsOnly_of_findAndModify {ns : Namespace} {query update : Document}
    {returnNew upsert : Bool} {bypassValidation : Option Bool} {options : FindOptions}
    (h : .findAndModify ns query (.update update returnNew upsert bypassValidation) options ∈
      r.commands text b) : UpdateSpec.OperatorsOnly update := by
  rw [mem_commands_iff_of_not_insert (by simp [Command.operation?])] at h
  obtain ⟨call, ns', -, hop, hrequest⟩ := call_of_request h rfl
  simp only [operationRequest, hop] at hrequest
  obtain ⟨entries, -, spec, -, command, hcommand, hsend⟩ :=
    Call.findAndModifyRequest_eq_ok_iff.mp hrequest
  cases hsend
  obtain ⟨written, -, -, hupdate⟩ | ⟨-, -, hremove⟩ := Specification.command_eq_ok_iff.mp hcommand
  · obtain ⟨_, -, _, hconvert, _, -, _, -, -, -, heq⟩ :=
      Specification.updateCommand_eq_ok_iff.mp hupdate
    cases heq
    exact UpdateSpec.operatorsOnly_of_convert hconvert
  · -- a removal carries no update
    obtain ⟨_, -, _, -, _, -, -, heq⟩ := Specification.removeCommand_eq_ok_iff.mp hremove
    cases heq

/-! ## Main result -/

/-- Every update that is sent consists of operators.  An update command has the filter of its call,
    and it reaches many documents, or makes a new one, exactly when the call asks for it. -/
theorem update_commands (r : Resolver) (text : String) (b : Backend) :
    (∀ ns filter update multi upsert,
      .update ns filter update multi upsert ∈ r.commands text b →
        ∃ call, Query.parse text = .ok (.call call) ∧
          UpdateAsked call filter update multi upsert) ∧
    ∀ ns query update returnNew upsert bypassValidation options,
      .findAndModify ns query (.update update returnNew upsert bypassValidation) options ∈
        r.commands text b → UpdateSpec.OperatorsOnly update := by
  constructor
  · intro ns filter update multi upsert h
    exact updateAsked_of_mem h
  · intro ns query update returnNew upsert bypassValidation options h
    exact operatorsOnly_of_findAndModify h

/-- A number as the flag `multi` reaches many documents, and still with operators only. -/
theorem update_many_by_number :
    ∃ ns filter update upsert call,
      .update ns filter update true upsert ∈ Resolver.commands ⟨some "d", false⟩
        "c.update(\x7b\x7d, \x7b\"a\": 1\x7d, \x7b\"multi\": 2\x7d)" (.fresh []) ∧
      UpdateSpec.OperatorsOnly update ∧
      Query.parse "c.update(\x7b\x7d, \x7b\"a\": 1\x7d, \x7b\"multi\": 2\x7d)" =
        .ok (.call call) ∧
      call.AsksFor "multi" := by
  have hsent : (Resolver.commands ⟨some "d", false⟩
      "c.update(\x7b\x7d, \x7b\"a\": 1\x7d, \x7b\"multi\": 2\x7d)" (.fresh [])).any
      (fun c => c.operation? = some .update ∧
        (c.toJson.property? "multi").bind Json.bool? = some true) = true := by
    decide +kernel
  obtain ⟨c, hmem, hc⟩ := List.any_eq_true.mp hsent
  obtain ⟨hop, hmulti⟩ := of_decide_eq_true hc
  cases c with
  | update ns filter update multi upsert =>
    obtain rfl : multi = true := Option.some.inj hmulti
    obtain ⟨call, hparse, hasked⟩ := (update_commands _ _ _).1 ns filter update true upsert hmem
    exact ⟨ns, filter, update, upsert, call, hmem, hasked.operators, hparse, hasked.multi.mp rfl⟩
  | find | aggregate | insert | delete | findAndModify | eval | listDatabases => cases hop

end Resolver

end ShellQuery
