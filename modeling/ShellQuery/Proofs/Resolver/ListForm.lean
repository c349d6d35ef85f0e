import ShellQuery.Proofs.Query.Head
import ShellQuery.Proofs.Resolver.Sent

/-!
# Parameters in one list

The stages of a pipeline stand between the parentheses of a call one by one, or all in one list, and
so does a document to insert.  The two forms are read as different parameters, but what they ask for
is the same: `list_form_agrees`.

The brackets of the list count as one level of nesting.  A document that nests as deep as the
parameters of a call may is inserted by itself and cannot be read in a list:
`deepest_object_only_alone`.
-/

namespace ShellQuery

open Outcome

/-! ## Reading either form -/

namespace Query

/-- A call on the collection `c` behind the root, without a tail, is read when its block is. -/
theorem parse_rooted (op : Operation) {block : String} (h : Bracket.Balanced block.toList) :
    parse ("db.c." ++ op.name ++ "(" ++ block ++ ")") =
      (readParameters block.toList).map fun parameters =>
        .call ⟨none, "c", op, parameters, ""⟩ := by
  let head : List Char := "c.".toList ++ op.name.toList
  have htext : ("db.c." ++ op.name ++ "(" ++ block ++ ")").toList =
      'd' :: 'b' :: '.' :: (head ++ '(' :: (block.toList ++ [')'])) := by
    simp [head]
  have hlast : ("db.c." ++ op.name ++ "(" ++ block ++ ")").toList.getLast? = some ')' := by
    rw [String.toList_append]
    exact List.getLast?_concat
  -- the text starts with the root and ends with the parenthesis
  have htrim : Text.trim ("db.c." ++ op.name ++ "(" ++ block ++ ")").toList =
      ("db.c." ++ op.name ++ "(" ++ block ++ ")").toList := by
    apply Text.trim_eq_self
    · rw [htext]
      rintro _ ⟨⟩
      decide
    · rw [hlast]
      rintro _ ⟨⟩
      decide
  have hroot : dropRoot ("db.c." ++ op.name ++ "(" ++ block ++ ")").toList =
      head ++ '(' :: (block.toList ++ [')']) := by
    rw [htext]
    rfl
  have hplain : '(' ∉ head := by cases op <;> decide
  have hsplit : Text.splitFirst? '(' (head ++ '(' :: (block.toList ++ [')'])) =
      some (head, block.toList ++ [')']) :=
    Text.splitFirst?_eq_some_iff.mpr ⟨hplain, rfl⟩
  have hnames : headNames head = [['c'], op.name.toList] := by cases op <;> decide
  obtain ⟨hcheck, hop, hdatabase, hcollection⟩ := namesDenote_iff.mp
    (@NamesDenote.collection ['c'] op (by decide))
  have hgroup : Bracket.group (Text.byteLength head) ('(' :: (block.toList ++ [')'])) =
      .ok ⟨block.toList, []⟩ :=
    Bracket.group_eq_ok_iff.mpr ⟨'(', ')', rfl, rfl, h⟩
  have hscript : ¬ ("db.c." ++ op.name ++ "(" ++ block ++ ")").toList.getLast? = some ';' := by
    rw [hlast]
    decide
  simp only [parse, htrim, hroot, hsplit, hnames, hcheck, hdatabase, hcollection, if_neg hscript,
    hop, hgroup, mapError_ok, bind, Except.bind]
  cases readParameters block.toList with
  | error e => rfl
  | ok parameters => rfl

theorem parse_rooted_of_denotes (op : Operation) {block : String} {parameters : List Json}
    (h : BlockDenotes block.toList parameters) :
    parse ("db.c." ++ op.name ++ "(" ++ block ++ ")") =
      .ok (.call ⟨none, "c", op, parameters, ""⟩) := by
  rw [parse_rooted op h.balanced, readParameters_eq_ok_iff.mpr h]
  rfl

variable {block : String} {items : List Json}

/-- Values that stand one by one are the parameters. -/
theorem parse_rooted_items (op : Operation)
    (h : Json.Denotes (Json.maxDepth - 1) ('[' :: (block.toList ++ [']'])) (.arr items)) :
    parse ("db.c." ++ op.name ++ "(" ++ block ++ ")") =
      .ok (.call ⟨none, "c", op, items, ""⟩) :=
  parse_rooted_of_denotes op (.list (h.mono (Nat.sub_le _ _)))

/-- The same for a block in brackets. -/
theorem parse_rooted_bracketed (op : Operation) (h : Bracket.Balanced block.toList) :
    parse ("db.c." ++ op.name ++ "([" ++ block ++ "])") =
      (readParameters ('[' :: (block.toList ++ [']']))).map fun parameters =>
        .call ⟨none, "c", op, parameters, ""⟩ := by
  have hblock : ("[" ++ block ++ "]").toList = '[' :: (block.toList ++ [']']) := by simp
  have htext : "db.c." ++ op.name ++ "([" ++ block ++ "])" =
      "db.c." ++ op.name ++ "(" ++ ("[" ++ block ++ "]") ++ ")" := by
    rw [← String.toList_inj]
    simp
  have hbalanced : Bracket.Balanced ("[" ++ block ++ "]").toList := by
    rw [hblock]
    exact h.enclosed rfl
  rw [htext, parse_rooted op hbalanced, hblock]

/-- Values that stand in brackets are one parameter. -/
theorem parse_rooted_list (op : Operation)
    (h : Json.Denotes (Json.maxDepth - 1) ('[' :: (block.toList ++ [']'])) (.arr items)) :
    parse ("db.c." ++ op.name ++ "([" ++ block ++ "])") =
      .ok (.call ⟨none, "c", op, [.arr items], ""⟩) := by
  have hparameters : BlockDenotes ('[' :: (block.toList ++ [']'])) [.arr items] :=
    .list h.bracketed
  rw [parse_rooted_bracketed op h.balanced_inside, readParameters_eq_ok_iff.mpr hparameters]
  rfl

end Query

/-! ## Requests of either form -/

namespace Call

variable {ns : Namespace} {call call' : Call}

/-- Parameters that are objects are stages one by one. -/
theorem stages_of_objects (h : ∀ v ∈ call.parameters, ∃ fields, v = .obj fields) :
    call.stages = call.parameters := by
  unfold stages
  split
  · next items hparameters =>
    -- the one parameter would be a list
    rw [hparameters] at h
    obtain ⟨fields, hfields⟩ := h _ List.mem_cons_self
    cases hfields
  · rfl

theorem aggregateRequest_congr (h : call.stages = call'.stages) :
    call.aggregateRequest ns = call'.aggregateRequest ns := by
  rw [aggregateRequest, aggregateRequest, h]

end Call

namespace Resolver

variable {r : Resolver} {block : String} {items : List Json}

/-- The stages of a pipeline ask for the same in either form. -/
theorem request_aggregate_list
    (h : Json.Denotes (Json.maxDepth - 1) ('[' :: (block.toList ++ [']'])) (.arr items))
    (hobjects : ∀ v ∈ items, ∃ fields, v = .obj fields) :
    r.request ("db.c.aggregate(" ++ block ++ ")") =
      r.request ("db.c.aggregate([" ++ block ++ "])") := by
  have hstages : Call.stages ⟨none, "c", .aggregate, items, ""⟩ =
      Call.stages ⟨none, "c", .aggregate, [.arr items], ""⟩ := Call.stages_of_objects hobjects
  calc r.request ("db.c.aggregate(" ++ block ++ ")")
      = r.callRequest ⟨none, "c", .aggregate, items, ""⟩ :=
        request_of_parse (Query.parse_rooted_items .aggregate h)
    _ = r.callRequest ⟨none, "c", .aggregate, [.arr items], ""⟩ := by
        simp only [callRequest, operationRequest, Call.aggregateRequest_congr hstages]
    _ = r.request ("db.c.aggregate([" ++ block ++ "])") :=
        (request_of_parse (Query.parse_rooted_list .aggregate h)).symm

/-- A document is inserted in either form. -/
theorem request_insert_list {fields : Entries Json}
    (h : Json.Denotes (Json.maxDepth - 2) block.toList (.obj fields)) :
    r.request ("db.c.insert(" ++ block ++ ")") = r.request ("db.c.insert([" ++ block ++ "])") := by
  calc r.request ("db.c.insert(" ++ block ++ ")")
      = r.callRequest ⟨none, "c", .insert, [.obj fields], ""⟩ :=
        request_of_parse (Query.parse_rooted_items .insert h.bracketed)
    _ = r.callRequest ⟨none, "c", .insert, [.arr [.obj fields]], ""⟩ := rfl
    _ = r.request ("db.c.insert([" ++ block ++ "])") :=
        (request_of_parse (Query.parse_rooted_list .insert h.bracketed)).symm

/-- A pipeline sends its stages in the order of the text, when there is a database and all of them can
    be converted. -/
theorem mem_commands_aggregate_iff {b : Backend} {c : Command}
    (h : Json.Denotes (Json.maxDepth - 1) ('[' :: (block.toList ++ [']'])) (.arr items))
    (hobjects : ∀ v ∈ items, ∃ fields, v = .obj fields) :
    c ∈ r.commands ("db.c.aggregate(" ++ block ++ ")") b ↔
      ∃ database pipeline, r.database = some database ∧
        List.Forall₂ (fun v d => Document.convert v = .ok d) items pipeline ∧
        c = .aggregate ⟨database, "c"⟩ pipeline := by
  have hstages : Call.stages ⟨none, "c", .aggregate, items, ""⟩ = items :=
    Call.stages_of_objects hobjects
  have hrequest : r.request ("db.c.aggregate(" ++ block ++ ")") =
      r.callRequest ⟨none, "c", .aggregate, items, ""⟩ :=
    request_of_parse (Query.parse_rooted_items .aggregate h)
  have hdatabase : ∀ database, r.databaseFor none = .ok database ↔ r.database = some database := by
    intro database
    rw [databaseFor]
    cases r.database <;> simp
  simp only [mem_commands_iff, hrequest, callRequest_eq_ok_iff, operationRequest,
    Call.aggregateRequest_eq_ok_iff, hstages, Document.convertAll_eq_ok_iff, hdatabase]
  constructor
  · rintro ⟨asked, ⟨database, hdatabase, pipeline, hpipeline, hasked⟩, rfl⟩
    cases hasked
    exact ⟨database, pipeline, hdatabase, hpipeline, rfl⟩
  · rintro ⟨database, pipeline, hdatabase, hpipeline, rfl⟩
    exact ⟨_, ⟨database, hdatabase, pipeline, hpipeline, rfl⟩, rfl⟩

/-! ## Main result -/

/-- The stages of a pipeline that are objects give the same result or the same error, and send the
    same pipeline, whether they stand one by one or in one list.  So does a document to insert,
    alone or in a list of one.  The text must leave room for the level that the list adds. -/
theorem list_form_agrees (r : Resolver) (b : Backend) :
    (∀ (block : String) (items : List Json),
      Json.Denotes (Json.maxDepth - 1) ('[' :: (block.toList ++ [']'])) (.arr items) →
      (∀ v ∈ items, ∃ fields, v = .obj fields) →
      r.resolve ("db.c.aggregate(" ++ block ++ ")") b =
          r.resolve ("db.c.aggregate([" ++ block ++ "])") b ∧
        r.commands ("db.c.aggregate(" ++ block ++ ")") b =
          r.commands ("db.c.aggregate([" ++ block ++ "])") b ∧
        ∀ c, c ∈ r.commands ("db.c.aggregate(" ++ block ++ ")") b ↔
          ∃ database pipeline, r.database = some database ∧
            List.Forall₂ (fun v d => Document.convert v = .ok d) items pipeline ∧
            c = .aggregate ⟨database, "c"⟩ pipeline) ∧
    ∀ (block : String) (fields : Entries Json),
      Json.Denotes (Json.maxDepth - 2) block.toList (.obj fields) →
      r.resolve ("db.c.insert(" ++ block ++ ")") b =
          r.resolve ("db.c.insert([" ++ block ++ "])") b ∧
        r.commands ("db.c.insert(" ++ block ++ ")") b =
          r.commands ("db.c.insert([" ++ block ++ "])") b := by
  constructor
  · intro block items hblock hobjects
    have hsame := request_aggregate_list (r := r) hblock hobjects
    exact ⟨resolve_congr hsame, commands_eq_of_request hsame,
      fun c => mem_commands_aggregate_iff hblock hobjects⟩
  · intro block fields hblock
    have hsame := request_insert_list (r := r) hblock
    exact ⟨resolve_congr hsame, commands_eq_of_request hsame⟩

/-- Two stages of which the first has brackets in a text. -/
def twoStages : String :=
  "\x7b\"$match\":\x7b\"s\":\"])\"\x7d\x7d , \x7b\"$limit\":1\x7d"

/-- Both forms of the two stages send them in their order, and both forms of an insertion of the
    second fail in the same way without a database. -/
theorem list_form_agrees_on_two_stages :
    Resolver.resolve ⟨some "d", false⟩ ("db.c.aggregate(" ++ twoStages ++ ")") (.fresh []) =
        Resolver.resolve ⟨some "d", false⟩ ("db.c.aggregate([" ++ twoStages ++ "])") (.fresh []) ∧
      .aggregate ⟨"d", "c"⟩ [[("$match", .document [("s", .string "])")])], [("$limit", .int32 1)]] ∈
        Resolver.commands ⟨some "d", false⟩ ("db.c.aggregate([" ++ twoStages ++ "])") (.fresh []) ∧
      Resolver.resolve ⟨none, false⟩ ("db.c.insert(" ++ "\x7b\"$limit\":1\x7d" ++ ")") (.fresh []) =
        Resolver.resolve ⟨none, false⟩ ("db.c.insert([" ++ "\x7b\"$limit\":1\x7d" ++ "])")
          (.fresh []) := by
  have htokens : Json.tokens ('[' :: (twoStages.toList ++ [']'])) = some [.openArray, .openObject,
      .leaf (.str "$match"), .colon, .openObject, .leaf (.str "s"), .colon, .leaf (.str "])"),
      .closeObject, .closeObject, .comma, .openObject, .leaf (.str "$limit"), .colon,
      .leaf (.int 1), .closeObject, .closeArray] := by rfl
  have hstages : Json.Denotes (Json.maxDepth - 1) ('[' :: (twoStages.toList ++ [']']))
      (.arr [.obj [("$match", .obj [("s", .str "])")])], .obj [("$limit", .int 1)]]) := by
    rw [← Json.readWithin?_eq_some_iff, Json.readWithin?, htokens]
    rfl
  have hdocument : Json.Denotes (Json.maxDepth - 2) "\x7b\"$limit\":1\x7d".toList
      (.obj [("$limit", .int 1)]) := by
    have htokens : Json.tokens "\x7b\"$limit\":1\x7d".toList = some [.openObject,
      .leaf (.str "$limit"), .colon, .leaf (.int 1), .closeObject] := by rfl
    rw [← Json.readWithin?_eq_some_iff, Json.readWithin?, htokens]
    rfl
  obtain ⟨hresolve, hcommands, hsent⟩ := (list_form_agrees ⟨some "d", false⟩ (.fresh [])).1
    twoStages _ hstages (by simp)
  refine ⟨hresolve, ?_, ?_⟩
  · rw [← hcommands, hsent]
    exact ⟨"d", _, rfl, .cons rfl (.cons rfl .nil), rfl⟩
  · exact ((list_form_agrees ⟨none, false⟩ (.fresh [])).2 _ _ hdocument).1

/-- Objects inside one another, `n` of them in the outermost. -/
def nestedObjects : Nat → List Char
  | 0 => "\x7b\x7d".toList
  | n + 1 => "\x7b\"a\":".toList ++ (nestedObjects n ++ ['}'])

/-- A document that nests as deep as the parameters of a call may can be read alone, where the want
    of a database is what fails, but not in a list. -/
theorem deepest_object_only_alone :
    (∃ fields, Json.Denotes 126 (nestedObjects 125) (.obj fields)) ∧
      (Resolver.resolve ⟨none, false⟩
        ("db.c.insert(" ++ String.ofList (nestedObjects 125) ++ ")") (.fresh [])).1 =
          .error (ParameterFault.error .noDatabase) ∧
      (Resolver.resolve ⟨none, false⟩
        ("db.c.insert([" ++ String.ofList (nestedObjects 125) ++ "])") (.fresh [])).1 =
          .error (.query (.parameterBlock "the parameters are no list of JSON values")) := by
  have hobject : ((Json.readWithin? 126 (nestedObjects 125)).bind Json.entries?).isSome = true := by
    decide +kernel
  have hnone : Json.read? ('[' :: ('[' :: (nestedObjects 125 ++ [']']) ++ [']'])) = none := by
    rw [← Option.isNone_iff_eq_none]
    decide +kernel
  obtain ⟨fields, hfields⟩ := Option.isSome_iff_exists.mp hobject
  obtain ⟨v, hread, hentries⟩ := Option.bind_eq_some_iff.mp hfields
  have hdenotes : Json.Denotes 126 (nestedObjects 125) (.obj fields) := by
    cases v with
    | obj entries =>
      cases hentries
      exact Json.readWithin?_eq_some_iff.mp hread
    | null | bool | int | float | str | arr => cases hentries
  have hlist : Json.Denotes 127 ('[' :: ((String.ofList (nestedObjects 125)).toList ++ [']']))
      (.arr [.obj fields]) := by
    rw [String.toList_ofList]
    exact hdenotes.bracketed
  refine ⟨⟨fields, hdenotes⟩, ?_, ?_⟩
  · have hrequest : Resolver.request ⟨none, false⟩
        ("db.c.insert(" ++ String.ofList (nestedObjects 125) ++ ")") =
          .error (ParameterFault.error .noDatabase) :=
      (request_of_parse (Query.parse_rooted_of_denotes .insert (.list hlist))).trans rfl
    rw [resolve_of_request_error _ hrequest]
  · have hparse := Query.parse_rooted_bracketed .insert hlist.balanced_inside
    rw [String.toList_ofList, Query.readParameters, hnone] at hparse
    have hrequest : Resolver.request ⟨none, false⟩
        ("db.c.insert([" ++ String.ofList (nestedObjects 125) ++ "])") =
          .error (.query (.parameterBlock "the parameters are no list of JSON values")) :=
      congrArg (· >>= Resolver.queryRequest ⟨none, false⟩) hparse
    rw [resolve_of_request_error _ hrequest]

end Resolver

end ShellQuery
