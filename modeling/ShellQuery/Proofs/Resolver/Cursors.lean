import ShellQuery.Proofs.Query.Call
import ShellQuery.Proofs.Query.Modifiers
import ShellQuery.Proofs.Resolver.Sent
import ShellQuery.Proofs.Text.Names

/-!
# The cursor of a query

Of its tail a call uses the modifiers only, and those depend on the first limit and the first skip.
So the tail may be exchanged for any other chain with the same two, and the commands that are sent
remain the same.

The main statement is `cursor_depends_on_first_calls`.
-/

namespace ShellQuery

open Outcome

/-! ## The tail of a call -/

/-- The call with another tail. -/
def Call.withTail (call : Call) (tail : List Char) : Call :=
  { call with tail := String.ofList tail }

theorem Call.modifiers_withTail_eq_ok_iff {call : Call} {tail : List Char} {m : Modifiers} :
    (call.withTail tail).modifiers = .ok m ↔ Modifiers.ofTail tail = .ok m := by
  rw [modifiers, mapError_eq_ok_iff, withTail, String.toList_ofList]

/-- A `find` uses the modifiers of its tail. -/
theorem Call.findRequest_withTail {ns : Namespace} {call : Call} {tail tail' : List Char}
    {request : Request} (h : ∀ m, Modifiers.ofTail tail = .ok m ↔ Modifiers.ofTail tail' = .ok m) :
    (call.withTail tail).findRequest ns = .ok request ↔
      (call.withTail tail').findRequest ns = .ok request := by
  simp only [findRequest_eq_ok_iff, modifiers_withTail_eq_ok_iff, h]
  exact Iff.rfl

namespace Resolver

variable {r : Resolver} {b : Backend} {request : Request}

/-- No other operation uses its tail. -/
theorem operationRequest_withTail {ns : Namespace} {call : Call} {tail tail' : List Char}
    (h : ∀ m, Modifiers.ofTail tail = .ok m ↔ Modifiers.ofTail tail' = .ok m) :
    operationRequest ns (call.withTail tail) = .ok request ↔
      operationRequest ns (call.withTail tail') = .ok request := by
  cases hop : call.operation with
  | find =>
    have hfind : ∀ t, operationRequest ns (call.withTail t) = (call.withTail t).findRequest ns := by
      intro t
      have hwith : (call.withTail t).operation = .find := hop
      rw [operationRequest, hwith]
    rw [hfind, hfind]
    exact Call.findRequest_withTail h
  | save => simp only [operationRequest, Call.withTail, hop]
  | findAndModify | aggregate | insert | update | remove =>
    simp only [operationRequest, Call.withTail, hop]
    exact Iff.rfl

/-- Texts that ask for the same send the same. -/
theorem commands_congr {text text' : String}
    (h : ∀ request, r.request text = .ok request ↔ r.request text' = .ok request) :
    r.commands text b = r.commands text' b := by
  cases hrequest : r.request text with
  | ok request =>
    have hrequest' := (h request).mp hrequest
    cases request with
    | answer v => rw [commands_of_answer hrequest, commands_of_answer hrequest']
    | send c => rw [commands_of_send hrequest, commands_of_send hrequest']
  | error e =>
    cases hrequest' : r.request text' with
    | ok request =>
      rw [(h request).mpr hrequest'] at hrequest
      cases hrequest
    | error e' => rw [commands_of_error hrequest, commands_of_error hrequest']

/-- Two texts that differ in their tails send the same, when the tails have the same modifiers. -/
theorem commands_withTail {text text' : String} {call : Call} {tail tail' : List Char}
    (h : ∀ m, Modifiers.ofTail tail = .ok m ↔ Modifiers.ofTail tail' = .ok m)
    (hparse : Query.parse text = .ok (.call (call.withTail tail)))
    (hparse' : Query.parse text' = .ok (.call (call.withTail tail'))) :
    r.commands text b = r.commands text' b := by
  apply commands_congr
  intro request
  rw [request_of_parse hparse, request_of_parse hparse', callRequest_eq_ok_iff,
    callRequest_eq_ok_iff]
  exact exists_congr fun database => and_congr_right fun _ => operationRequest_withTail h

/-! ## Main result -/

open Modifiers in
/-- The modifiers are the numbers of the first limit and the first skip, if these are numbers, and
    nothing else in the tail has an effect: neither on the modifiers nor on what is sent.  In
    particular the calls may be arranged in any order that keeps that of the limits and of the
    skips. -/
theorem cursor_depends_on_first_calls {tail tail' : List Char} {calls calls' : List ChainedCall}
    (hsplit : Chain.split tail = .ok calls) (hsplit' : Chain.split tail' = .ok calls') :
    (∀ m, ofTail tail = .ok m ↔
      Option.Rel IsLimit (firstArgument "limit" calls) m.limit ∧
        Option.Rel IsSkip (firstArgument "skip" calls) m.skip) ∧
    (Relation.ReflTransGen Swaps calls calls' → AgreeOnFirst calls calls') ∧
    (AgreeOnFirst calls calls' →
      (∀ m, ofTail tail = .ok m ↔ ofTail tail' = .ok m) ∧
      ∀ (r : Resolver) (b : Backend) (text text' : String) (call : Call),
        Query.parse text = .ok (.call (call.withTail tail)) →
        Query.parse text' = .ok (.call (call.withTail tail')) →
        r.commands text b = r.commands text' b) := by
  refine ⟨fun m => ?_, agreeOnFirst_of_swaps, fun hagree => ?_⟩
  · rw [ofTail_of_split hsplit, ofCalls_eq_ok_iff]
  · have hsame : ∀ m, ofTail tail = .ok m ↔ ofTail tail' = .ok m := by
      intro m
      rw [ofTail_of_split hsplit, ofTail_of_split hsplit', hagree.same_modifiers]
    exact ⟨hsame, fun _ _ _ _ _ hparse hparse' => commands_withTail hsame hparse hparse'⟩

open Modifiers in
/-- A limit at the bound, a sign, and a limit that is no number behind the first. -/
theorem cursor_depends_on_first_calls_at_bound :
    let tail := ".limit(-9223372036854775808).pretty().skip(+3).LIMIT(x)".toList
    let tail' := ".pretty().skip(+3).limit(-9223372036854775808).LIMIT(x)".toList
    ofTail tail = .ok ⟨some (-2 ^ 63), some 3⟩ ∧ ofTail tail' = .ok ⟨some (-2 ^ 63), some 3⟩ ∧
      ∀ (r : Resolver) (b : Backend),
        r.commands ("c.find()" ++ String.ofList tail) b =
          r.commands ("c.find()" ++ String.ofList tail') b := by
  intro tail tail'
  let first : ChainedCall := ⟨"limit", "-9223372036854775808"⟩
  let pretty : ChainedCall := ⟨"pretty", ""⟩
  let skip : ChainedCall := ⟨"skip", "+3"⟩
  let last : ChainedCall := ⟨"LIMIT", "x"⟩
  have hsplit : Chain.split tail = .ok [first, pretty, skip, last] := by rfl
  have hsplit' : Chain.split tail' = .ok [pretty, skip, first, last] := by rfl
  have hswaps : Relation.ReflTransGen Swaps [first, pretty, skip, last]
      [pretty, skip, first, last] := by
    refine .tail (.single (@Swaps.swap [] [skip, last] first pretty ?_))
      (@Swaps.swap [pretty] [last] first skip ?_)
    · decide
    · decide
  let call : Call := ⟨none, "c", .find, [], ""⟩
  have hparse : ∀ t ∈ [tail, tail'],
      Query.parse ("c.find()" ++ String.ofList t) = .ok (.call (call.withTail t)) := by
    have hends : ∀ t ∈ [tail, tail'], t.head? = some '.' ∧ t.getLast? = some ')' := by
      simp [tail, tail']
    have hnames : Query.headNames "c.find".toList = [['c'], Operation.find.name.toList] := by decide
    intro t ht
    obtain ⟨hhead, hlast⟩ := hends t ht
    have hlast' : ("c.find()".toList ++ t).getLast? = some ')' := by
      rw [List.getLast?_append, hlast, Option.some_or]
    -- neither the tail nor the whole text has a blank end
    have htail : Text.trim t = t := by
      apply Text.trim_eq_self
      · rw [hhead]
        rintro _ ⟨⟩
        decide
      · rw [hlast]
        rintro _ ⟨⟩
        decide
    have htext : Text.trim ("c.find()" ++ String.ofList t).toList = "c.find()".toList ++ t := by
      rw [String.toList_append, @String.toList_ofList t]
      apply Text.trim_eq_self
      · rintro _ ⟨⟩
        decide
      · rw [hlast']
        rintro _ ⟨⟩
        decide
    have hreads : Query.CallText.Reads ⟨"c.find".toList, [], t⟩ (call.withTail t) := by
      have hplain : '(' ∉ "c.find".toList := by decide
      refine ⟨hplain, ?_, .blank nofun, congrArg String.ofList htail.symm⟩
      rw [hnames]
      exact .collection (by decide)
    have hend : (Text.trim ("c.find()" ++ String.ofList t).toList).getLast? ≠ some ';' := by
      rw [htext, hlast']
      decide
    exact Query.parse_of_reads hend (htext ▸ rfl) hreads
  obtain ⟨-, hagree, hsame⟩ := cursor_depends_on_first_calls hsplit hsplit'
  obtain ⟨hmodifiers, hcommands⟩ := hsame (hagree hswaps)
  have htail : ofTail tail = .ok ⟨some (-2 ^ 63), some 3⟩ := by rfl
  exact ⟨htail, (hmodifiers _).mp htail, fun r b => hcommands r b _ _ call
    (hparse _ List.mem_cons_self) (hparse _ (List.mem_cons_of_mem _ List.mem_cons_self))⟩

end Resolver

end ShellQuery
