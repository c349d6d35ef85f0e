import ShellQuery.Proofs.Bson.Documents
import ShellQuery.Proofs.Resolver.Sent

/-!
# What a remove deletes

`RemoveParameters` lists the parameters that a `remove` may have and the filter that they give.
All others are an error and nothing is sent.  Deleting everything takes an empty list of parameters
or the empty object as the filter; no other value, wrapper or conversion comes out as the empty
filter: `remove_commands`.
-/

namespace ShellQuery

open Outcome

/-! ## The second parameter -/

/-- The values that may say whether one document is enough: a flag, or an object whose entry
    `justOne`, if it has one, is a flag. -/
inductive IsJustOne : Json → Prop where
  | flag {v : Json} (h : IsFlag v) : IsJustOne v
  | missing {options : Entries Json} (h : Entries.find? options "justOne" = none) :
      IsJustOne (.obj options)
  | option {options : Entries Json} {v : Json} (h : Entries.find? options "justOne" = some v)
      (hv : IsFlag v) : IsJustOne (.obj options)

/-- The values that say that one document is enough. -/
inductive AsksForOne : Json → Prop where
  | flag {v : Json} (h : Truthy v) : AsksForOne v
  | option {options : Entries Json} {v : Json} (h : Entries.find? options "justOne" = some v)
      (hv : Truthy v) : AsksForOne (.obj options)

/-- Only an object has an entry. -/
theorem isJustOne_iff_of_not_object {v : Json} (hv : ∀ options, v ≠ .obj options) :
    (IsJustOne v ↔ IsFlag v) ∧ (AsksForOne v ↔ Truthy v) := by
  refine ⟨⟨?_, .flag⟩, ⟨?_, .flag⟩⟩
  · intro h
    cases h with
    | flag h => exact h
    | missing | option => exact absurd rfl (hv _)
  · intro h
    cases h with
    | flag h => exact h
    | option => exact absurd rfl (hv _)

/-- No object is a flag. -/
theorem isJustOne_object_iff {options : Entries Json} :
    (IsJustOne (.obj options) ↔ ∀ v, Entries.find? options "justOne" = some v → IsFlag v) ∧
      (AsksForOne (.obj options) ↔ ∃ v, Entries.find? options "justOne" = some v ∧ Truthy v) := by
  constructor
  · constructor
    · intro h v hfind
      cases h with
      | flag h => cases h
      | missing hnone =>
        rw [hnone] at hfind
        cases hfind
      | option hsome hv =>
        rw [hsome] at hfind
        cases hfind
        exact hv
    · intro h
      cases hfind : Entries.find? options "justOne" with
      | none => exact .missing hfind
      | some v => exact .option hfind (h v hfind)
  · constructor
    · intro h
      cases h with
      | flag h => cases h
      | option hsome hv => exact ⟨_, hsome, hv⟩
    · rintro ⟨v, hsome, hv⟩
      exact .option hsome hv

namespace Call

variable {call : Call} {b : Bool}

/-- The second parameter is read when it is missing or may say whether one document is enough. -/
theorem justOne_eq_ok_iff :
    call.justOne = .ok b ↔
      (∀ v, call.parameter? 1 = some v → IsJustOne v) ∧
        (b = true ↔ ∃ v, call.parameter? 1 = some v ∧ AsksForOne v) := by
  unfold justOne
  split
  · next options hparameter =>
    simp only [hparameter, Option.some.injEq, forall_eq', exists_eq_left', isJustOne_object_iff.1,
      isJustOne_object_iff.2, optionFlag_eq_ok_iff, flag?_eq_some_iff]
    cases Entries.find? options "justOne" with
    | none => simp
    | some v => simp
  · next v hobject hparameter =>
    have hv : ∀ options, v ≠ .obj options := fun options h => hobject options h
    obtain ⟨hflag, htrue⟩ := isJustOne_iff_of_not_object hv
    simp only [hparameter, Option.some.injEq, forall_eq', exists_eq_left', hflag, htrue,
      ← flag?_eq_some_iff]
    cases v.flag? <;> simp
  · next hparameter => simp [hparameter, eq_comm]

end Call

/-! ## All parameters -/

/-- The parameters that a `remove` may have, with their filter. -/
inductive RemoveParameters : List Json → Document → Prop where
  | none : RemoveParameters [] []
  | filter {fields : Entries Json} {filter : Document}
      (h : Document.convert (.obj fields) = .ok filter) : RemoveParameters [.obj fields] filter
  | justOne {fields : Entries Json} {filter : Document} {v : Json}
      (h : Document.convert (.obj fields) = .ok filter) (hv : IsJustOne v) :
      RemoveParameters [.obj fields, v] filter

/-- The empty filter comes from no parameter or from the empty object. -/
theorem RemoveParameters.filter_eq_nil_iff {parameters : List Json} {filter : Document}
    (h : RemoveParameters parameters filter) :
    filter = [] ↔ parameters = [] ∨ parameters[0]? = some (.obj []) := by
  cases h with
  | none => simp
  | filter h | justOne h _ => simp [Document.eq_nil_iff_of_convert h]

namespace Call

variable {ns : Namespace} {call : Call} {request : Request}

/-- A `remove` asks for a deletion exactly when it has parameters that it may have. -/
theorem removeRequest_eq_ok_iff_parameters :
    call.removeRequest ns = .ok request ↔
      ∃ filter justOne, RemoveParameters call.parameters filter ∧
        (justOne = true ↔ ∃ v, call.parameter? 1 = some v ∧ AsksForOne v) ∧
        .send (.delete ns filter justOne) = request := by
  simp only [removeRequest_eq_ok_iff, document_eq_ok_iff, justOne_eq_ok_iff, parameter?]
  constructor
  · rintro ⟨hlength, ⟨hnil, rfl⟩ | ⟨hne, filter, ⟨fields, hfirst, hfilter⟩, hrest⟩⟩
    · -- without parameters everything is deleted
      rw [hnil]
      exact ⟨[], false, .none, by simp, rfl⟩
    · obtain ⟨one, ⟨hsecond, hone⟩, rfl⟩ := hrest
      refine ⟨filter, one, ?_, hone, rfl⟩
      -- at most two parameters are left, the first of which is an object
      match hparameters : call.parameters with
      | [] => exact absurd hparameters hne
      | [first] =>
        rw [hparameters] at hfirst
        obtain rfl := Option.some.inj hfirst
        exact .filter hfilter
      | [first, v] =>
        rw [hparameters] at hfirst hsecond
        obtain rfl := Option.some.inj hfirst
        exact .justOne hfilter (hsecond v rfl)
      | _ :: _ :: _ :: _ =>
        rw [hparameters] at hlength
        simp only [List.length_cons] at hlength
        omega
  · rintro ⟨filter, one, hparameters, hone, rfl⟩
    -- the shape of the parameters decides each of the checks
    generalize call.parameters = parameters at hparameters hone ⊢
    cases hparameters with
    | none =>
      obtain rfl : one = false := by simpa using hone
      exact ⟨Nat.zero_le 2, .inl ⟨rfl, rfl⟩⟩
    | @filter fields filter h =>
      exact ⟨by simp, .inr ⟨by simp, filter, ⟨fields, rfl, h⟩, one, ⟨nofun, hone⟩, rfl⟩⟩
    | @justOne fields filter v h hv =>
      have hsecond : ∀ w, [Json.obj fields, v][1]? = some w → IsJustOne w := by
        intro w hw
        obtain rfl := Option.some.inj hw
        exact hv
      exact ⟨by simp, .inr ⟨by simp, filter, ⟨fields, rfl, h⟩, one, ⟨hsecond, hone⟩, rfl⟩⟩

end Call

/-! ## Main result -/

namespace Resolver

variable {r : Resolver} {text : String} {b : Backend} {call : Call}

/-- A deletion that a `remove` sends has the filter of its parameters. -/
theorem removeParameters_of_mem (hparse : Query.parse text = .ok (.call call))
    {ns : Namespace} {filter : Document} {one : Bool}
    (h : .delete ns filter one ∈ r.commands text b) :
    RemoveParameters call.parameters filter ∧
      (one = true ↔ ∃ v, call.parameter? 1 = some v ∧ AsksForOne v) := by
  rw [mem_commands_iff_of_not_insert (by simp [Command.operation?])] at h
  obtain ⟨call', ns', hparse', hop, hrequest⟩ := call_of_request h rfl
  -- the call that is known to send the command is the call of the text
  rw [hparse] at hparse'
  cases hparse'
  simp only [operationRequest, hop] at hrequest
  obtain ⟨filter', one', hparameters, hone, heq⟩ :=
    Call.removeRequest_eq_ok_iff_parameters.mp hrequest
  cases heq
  exact ⟨hparameters, hone⟩

/-- Without parameters that it may have, a `remove` gives no request. -/
theorem exists_error_of_parameters (hparse : Query.parse text = .ok (.call call))
    (hop : call.operation = .remove)
    (hparameters : ∀ filter, ¬ RemoveParameters call.parameters filter) :
    ∃ e, r.request text = .error e := by
  cases hrequest : r.request text with
  | error e => exact ⟨e, rfl⟩
  | ok request =>
    obtain ⟨call', hparse', hcall⟩ | ⟨script, hparse', -⟩ := request_eq_ok_iff.mp hrequest
    · rw [hparse] at hparse'
      cases hparse'
      obtain ⟨database, -, hcall⟩ := callRequest_eq_ok_iff.mp hcall
      simp only [operationRequest, hop] at hcall
      obtain ⟨filter, -, hfilter, -⟩ := Call.removeRequest_eq_ok_iff_parameters.mp hcall
      exact absurd hfilter (hparameters filter)
    · rw [hparse] at hparse'
      cases hparse'

/-- A `remove` deletes what its parameters ask for.  Its filter is the one they give, which is
    empty only without parameters or for the empty object; it stops after one document exactly when
    they say so.  With any other parameters it is an error and nothing is sent. -/
theorem remove_commands (r : Resolver) (text : String) (b : Backend) (call : Call)
    (hparse : Query.parse text = .ok (.call call)) (hop : call.operation = .remove) :
    (∀ ns filter one, .delete ns filter one ∈ r.commands text b →
      RemoveParameters call.parameters filter ∧
      (filter = [] ↔ call.parameters = [] ∨ call.parameter? 0 = some (.obj [])) ∧
      (one = true ↔ ∃ v, call.parameter? 1 = some v ∧ AsksForOne v)) ∧
    ((∀ filter, ¬ RemoveParameters call.parameters filter) →
      (∃ e, (r.resolve text b).1 = .error e) ∧ r.commands text b = []) := by
  constructor
  · intro ns filter one h
    obtain ⟨hparameters, hone⟩ := removeParameters_of_mem hparse h
    exact ⟨hparameters, hparameters.filter_eq_nil_iff, hone⟩
  · intro hparameters
    obtain ⟨e, he⟩ := exists_error_of_parameters (r := r) hparse hop hparameters
    exact ⟨⟨e, by rw [resolve_of_request_error b he]⟩, commands_of_error he⟩

/-- An object with the option `justOne` stops after one document. -/
theorem remove_one_by_option :
    ∃ call ns filter,
      Query.parse "c.remove(\x7b\"a\": 1\x7d, \x7b\"justOne\": 1\x7d)" = .ok (.call call) ∧
      .delete ns filter true ∈ Resolver.commands ⟨some "d", false⟩
        "c.remove(\x7b\"a\": 1\x7d, \x7b\"justOne\": 1\x7d)" (.fresh []) ∧
      RemoveParameters call.parameters filter ∧
      ∃ v, call.parameter? 1 = some v ∧ AsksForOne v := by
  have hsent : (Resolver.commands ⟨some "d", false⟩
      "c.remove(\x7b\"a\": 1\x7d, \x7b\"justOne\": 1\x7d)" (.fresh [])).any
      (fun c => c.operation? = some .remove ∧
        (c.toJson.property? "limit").bind Json.int? = some 1) = true := by
    decide +kernel
  obtain ⟨c, hmem, hc⟩ := List.any_eq_true.mp hsent
  obtain ⟨hop, hlimit⟩ := of_decide_eq_true hc
  obtain ⟨call, hparse, hremove⟩ := call_of_mem hmem hop
  cases c with
  | delete ns filter one =>
    obtain rfl : one = true := by
      cases one with
      | false => cases hlimit
      | true => rfl
    obtain ⟨hparameters, -, hone⟩ :=
      (remove_commands _ _ _ call hparse hremove).1 ns filter true hmem
    exact ⟨call, ns, filter, hparse, hmem, hparameters, hone.mp rfl⟩
  | find | aggregate | insert | update | findAndModify | eval | listDatabases => cases hop

end Resolver

end ShellQuery
