import ShellQuery.Proofs.Resolver.Specifications

/-!
# The command of a specification

`Translates` says which command a specification stands for, part by part and from the entries alone.
A well-typed specification sends a command exactly when it translates to that command and the client
takes it: `findAndModify_translates`.
-/

namespace ShellQuery

open Outcome

/-! ## Translations -/

/-- The value is a document to the backend. -/
def IsDocument (v : Json) (d : Document) : Prop :=
  Document.convert v = .ok d

/-- What an entry passes on: nothing when it is left out or `null`, and else what it stands for. -/
inductive PassedOn {α : Type} (StandsFor : Json → α → Prop) : Option Json → Option α → Prop where
  | leftOut : PassedOn StandsFor none none
  | null : PassedOn StandsFor (some .null) none
  | given {v : Json} {a : α} (hnull : v ≠ .null) (h : StandsFor v a) :
      PassedOn StandsFor (some v) (some a)

/-- The entry of a name is a flag that is true. -/
def IsSet (entries : Entries Json) (name : String) : Prop :=
  ∃ v, Entries.find? entries name = some v ∧ Truthy v

/-- The filter and the options that both changes take from a specification. -/
structure SharedParts (entries : Entries Json) (query : Document) (options : FindOptions) :
    Prop where
  query : ∃ d, PassedOn IsDocument (Entries.find? entries "query") d ∧ d.getD [] = query
  sort : PassedOn IsDocument (Entries.find? entries "sort") options.sort
  fields : PassedOn IsDocument (Entries.find? entries "fields") options.fields
  maxTimeMs : PassedOn IsNatural64 (Entries.find? entries "maxTimeMS") options.maxTimeMs
  collation : PassedOn IsCollation (Entries.find? entries "collation") options.collation

/-- The command that a specification stands for.  A removal takes nothing from the entries that
    have a meaning for an update only. -/
inductive Translates (entries : Entries Json) : Document → Change → FindOptions → Prop where
  | update {query update : Document} {options : FindOptions} {fields : Entries Json}
      {returnNew upsert : Bool} {bypassValidation : Option Bool}
      (hfields : Entries.find? entries "update" = some (.obj fields))
      (hremove : ¬ AsksForRemoval entries)
      (hupdate : UpdateSpec.convert (.obj fields) = .ok update)
      (hnew : returnNew = true ↔ IsSet entries "new")
      (hupsert : upsert = true ↔ IsSet entries "upsert")
      (hbypass : PassedOn IsBool (Entries.find? entries "bypassDocumentValidation")
        bypassValidation)
      (hshared : SharedParts entries query options) :
      Translates entries query (.update update returnNew upsert bypassValidation) options
  | remove {query : Document} {options : FindOptions}
      (hremove : AsksForRemoval entries) (hupdate : ¬ HasUpdateDocument entries)
      (hshared : SharedParts entries query options) : Translates entries query .remove options

/-- The client takes the command: an update does something, and the time fits 64 bits with a
    sign. -/
structure IsTaken (change : Change) (options : FindOptions) : Prop where
  update : ∀ update returnNew upsert bypassValidation,
    change = .update update returnNew upsert bypassValidation → update ≠ []
  maxTimeMs : ∀ n ∈ options.maxTimeMs, n ≤ maxSigned64

/-! ## Parts of a translation -/

namespace Specification

variable {entries : Entries Json} {name : String} {ns : Namespace} {command : Command}

/-- A value that is given is neither left out nor `null`. -/
theorem bind_present_eq_some {v : Json} (hnull : v ≠ .null) : (some v).bind present = some v := by
  cases v with
  | null => exact absurd rfl hnull
  | bool | int | float | str | arr | obj => rfl

theorem convertOptional_eq_ok_iff {v : Option Json} {d : Option Document} :
    Document.convertOptional (v.bind present) = .ok d ↔ PassedOn IsDocument v d := by
  constructor
  · intro h
    cases v with
    | none =>
      cases h
      exact .leftOut
    | some v =>
      by_cases hnull : v = .null
      · subst hnull
        cases h
        exact .null
      · rw [bind_present_eq_some hnull, Document.convertOptional] at h
        · obtain ⟨fields, hfields, rfl⟩ := map_eq_ok_iff.mp h
          exact .given hnull hfields
        · exact hnull
  · rintro (_ | _ | ⟨hnull, h⟩)
    · rfl
    · rfl
    · rw [bind_present_eq_some hnull, Document.convertOptional]
      · exact map_eq_ok_iff.mpr ⟨_, h, rfl⟩
      · exact hnull

/-- A flag is looked up as true exactly when it is set. -/
theorem flag_lookedUp_iff :
    ((Entries.find? entries name).bind Json.flag?).getD false = true ↔ IsSet entries name := by
  unfold IsSet
  cases Entries.find? entries name with
  | none => simp
  | some v =>
    simp only [Option.bind_some, Option.some.injEq, exists_eq_left', ← flag?_eq_true_iff]
    cases v.flag? <;> simp

/-- An entry that has its form is passed on as it is read. -/
theorem passedOn_iff {α : Type} {StandsFor : Json → α → Prop} {read : Json → Option α}
    (hread : ∀ v a, StandsFor v a ↔ read v = some a) {v : Option Json}
    (hform : ∀ w, v = some w → w = .null ∨ ∃ a, StandsFor w a) {a : Option α} :
    PassedOn StandsFor v a ↔ a = (v.bind present).bind read := by
  constructor
  · rintro (_ | _ | ⟨hnull, h⟩)
    · rfl
    · rfl
    · rw [bind_present_eq_some hnull, Option.bind_some, (hread _ _).mp h]
  · rintro rfl
    cases v with
    | none => exact .leftOut
    | some w =>
      obtain rfl | ⟨a, ha⟩ := hform w rfl
      · exact .null
      · by_cases hnull : w = .null
        · subst hnull
          exact .null
        · rw [bind_present_eq_some hnull, Option.bind_some, (hread _ _).mp ha]
          exact .given hnull ha

/-- The filter is the query that is passed on, or matches everything. -/
theorem filter_eq_ok_iff {query : Document} :
    (lookedUp entries).filter = .ok query ↔
      ∃ d, PassedOn IsDocument (Entries.find? entries "query") d ∧ d.getD [] = query := by
  simp only [Specification.filter, map_eq_ok_iff, ← convertOptional_eq_ok_iff, lookedUp]

/-- The parts that both changes share are the ones that are read. -/
theorem sharedParts_iff (htyped : WellTyped entries) {query : Document}
    {sort fields : Option Document} {maxTimeMs : Option Nat} {collation : Option Collation} :
    SharedParts entries query ⟨sort, fields, maxTimeMs, collation⟩ ↔
      (lookedUp entries).filter = .ok query ∧
        Document.convertOptional (lookedUp entries).sort = .ok sort ∧
        Document.convertOptional (lookedUp entries).fields = .ok fields ∧
        maxTimeMs = (lookedUp entries).maxTimeMs ∧
        collation = (lookedUp entries).collation := by
  have hmax : PassedOn IsNatural64 (Entries.find? entries "maxTimeMS") maxTimeMs ↔
      maxTimeMs = (lookedUp entries).maxTimeMs :=
    passedOn_iff isNatural64_iff fun v hv =>
      (htyped _ v (Entries.mem_of_find? hv)).maxTimeMs rfl
  have hcollation : PassedOn IsCollation (Entries.find? entries "collation") collation ↔
      collation = (lookedUp entries).collation :=
    passedOn_iff isCollation_iff fun v hv =>
      (htyped _ v (Entries.mem_of_find? hv)).collation rfl
  rw [filter_eq_ok_iff, ← hmax, ← hcollation]
  constructor
  · rintro ⟨hquery, hsort, hfields, hmax, hcollation⟩
    exact ⟨hquery, convertOptional_eq_ok_iff.mpr hsort, convertOptional_eq_ok_iff.mpr hfields,
      hmax, hcollation⟩
  · rintro ⟨hquery, hsort, hfields, hmax, hcollation⟩
    exact ⟨hquery, convertOptional_eq_ok_iff.mp hsort, convertOptional_eq_ok_iff.mp hfields,
      hmax, hcollation⟩

/-- The update that counts is the object under its name. -/
theorem updateEntries?_lookedUp {fields : Entries Json} :
    (lookedUp entries).updateEntries? = some fields ↔
      Entries.find? entries "update" = some (.obj fields) := by
  simp only [updateEntries?, lookedUp]
  cases Entries.find? entries "update" with
  | none => simp
  | some v => cases v <;> simp [present, Json.entries?]

theorem remove_lookedUp : (lookedUp entries).remove = true ↔ AsksForRemoval entries :=
  flag_lookedUp_iff

theorem bypassValidation_lookedUp (htyped : WellTyped entries) {b : Option Bool} :
    PassedOn IsBool (Entries.find? entries "bypassDocumentValidation") b ↔
      b = (lookedUp entries).bypassValidation :=
  passedOn_iff isBool_iff fun v hv => (htyped _ v (Entries.mem_of_find? hv)).bypassValidation rfl

/-- The command of a well-typed specification is one that it translates to. -/
theorem translates_of_command (htyped : WellTyped entries)
    (h : (lookedUp entries).command ns = .ok command) :
    ∃ query change options, Translates entries query change options ∧ IsTaken change options ∧
      .findAndModify ns query change options = command := by
  obtain ⟨fields, hfields, hflag, hcommand⟩ | ⟨hnone, hflag, hcommand⟩ := command_eq_ok_iff.mp h
  · obtain ⟨query, hquery, update, hupdate, sort, hsort, projection, hprojection, hne, hmax, rfl⟩ :=
      updateCommand_eq_ok_iff.mp hcommand
    have hremove : ¬ AsksForRemoval entries := by
      rw [← remove_lookedUp, hflag]
      exact Bool.false_ne_true
    have hbypass := (bypassValidation_lookedUp htyped).mpr rfl
    have hshared := (sharedParts_iff htyped).mpr ⟨hquery, hsort, hprojection, rfl, rfl⟩
    refine ⟨query, _, _, .update (updateEntries?_lookedUp.mp hfields) hremove hupdate
      flag_lookedUp_iff flag_lookedUp_iff hbypass hshared, ⟨?_, hmax⟩, rfl⟩
    intro _ _ _ _ hchange
    cases hchange
    exact hne
  · obtain ⟨query, hquery, sort, hsort, projection, hprojection, hmax, rfl⟩ :=
      removeCommand_eq_ok_iff.mp hcommand
    have hupdate : ¬ HasUpdateDocument entries := by
      rintro ⟨fields, hfields⟩
      rw [updateEntries?_lookedUp.mpr hfields] at hnone
      cases hnone
    have hshared := (sharedParts_iff htyped).mpr ⟨hquery, hsort, hprojection, rfl, rfl⟩
    exact ⟨query, _, _, .remove (remove_lookedUp.mp hflag) hupdate hshared, ⟨nofun, hmax⟩, rfl⟩

/-- A command that a well-typed specification translates to is its command when it is taken. -/
theorem command_of_translates (htyped : WellTyped entries) {query : Document} {change : Change}
    {options : FindOptions} (h : Translates entries query change options)
    (htaken : IsTaken change options) :
    (lookedUp entries).command ns = .ok (.findAndModify ns query change options) := by
  obtain ⟨sort, projection, maxTimeMs, collation⟩ := options
  rw [command_eq_ok_iff]
  cases h with
  | update hfields hremove hupdate hnew hupsert hbypass hshared =>
    obtain ⟨hquery, hsort, hprojection, rfl, rfl⟩ := (sharedParts_iff htyped).mp hshared
    obtain rfl := (bypassValidation_lookedUp htyped).mp hbypass
    obtain rfl := Bool.eq_iff_iff.mpr (hnew.trans flag_lookedUp_iff.symm)
    obtain rfl := Bool.eq_iff_iff.mpr (hupsert.trans flag_lookedUp_iff.symm)
    have hflag : (lookedUp entries).remove = false := by
      rw [← Bool.not_eq_true, remove_lookedUp]
      exact hremove
    exact .inl ⟨_, updateEntries?_lookedUp.mpr hfields, hflag, updateCommand_eq_ok_iff.mpr
      ⟨query, hquery, _, hupdate, sort, hsort, projection, hprojection,
        htaken.update _ _ _ _ rfl, htaken.maxTimeMs, rfl⟩⟩
  | remove hremove hupdate hshared =>
    obtain ⟨hquery, hsort, hprojection, rfl, rfl⟩ := (sharedParts_iff htyped).mp hshared
    have hnone : (lookedUp entries).updateEntries? = none := by
      refine Option.eq_none_iff_forall_ne_some.mpr fun fields h => ?_
      exact hupdate ⟨fields, updateEntries?_lookedUp.mp h⟩
    exact .inr ⟨hnone, remove_lookedUp.mpr hremove, removeCommand_eq_ok_iff.mpr
      ⟨query, hquery, sort, hsort, projection, hprojection, htaken.maxTimeMs, rfl⟩⟩

/-! ## Removals -/

/-- The specification without what has a meaning for an update only. -/
def forRemoval (spec : Specification) : Specification :=
  { spec with returnNew := false, upsert := false, bypassValidation := none }

theorem command_forRemoval {spec : Specification} (h : spec.remove = true) :
    spec.forRemoval.command ns = spec.command ns := by
  have hremove : spec.forRemoval.remove = spec.remove := rfl
  have hupdate : spec.forRemoval.updateEntries? = spec.updateEntries? := rfl
  unfold Specification.command
  rw [hremove, hupdate, h]
  cases spec.updateEntries? <;> rfl

/-- A removal does not look at what has a meaning for an update only. -/
theorem command_lookedUp_of_removal {more : Entries Json} (hremove : AsksForRemoval entries)
    (h : ∀ name ∈ names, name ∉ updateNames →
      Entries.find? more name = Entries.find? entries name) :
    (lookedUp more).command ns = (lookedUp entries).command ns := by
  have hsame : (lookedUp more).forRemoval = (lookedUp entries).forRemoval := by
    simp only [names, updateNames, List.forall_mem_cons] at h
    obtain ⟨hquery, hsort, hupdate, hfields, hremove, -, -, -, hmax, hcollation, -⟩ := h
    simp only [forRemoval, lookedUp, hquery (by decide), hsort (by decide), hupdate (by decide),
      hfields (by decide), hremove (by decide), hmax (by decide), hcollation (by decide)]
  have hflag : (lookedUp entries).remove = true := remove_lookedUp.mpr hremove
  have hflag' : (lookedUp more).remove = true := by
    have hsameFlag := congrArg Specification.remove hsame
    exact hsameFlag.trans hflag
  rw [← command_forRemoval hflag, ← command_forRemoval hflag', hsame]

end Specification

/-! ## Calls -/

/-- The result of a command is the document that the reply returns, `null` when there is none. -/
theorem Command.resultOf_findAndModify {ns : Namespace} {query : Document} {change : Change}
    {options : FindOptions} (reply : Entries Json) :
    (Command.findAndModify ns query change options).resultOf reply =
      .ok (Document.optionalJson (Reply.document? reply "value")) := by
  unfold Command.resultOf Reply.document?
  cases Entries.find? reply "value" with
  | none => rfl
  | some v =>
    cases v with
    | obj fields =>
      simp only [Reply.documentResult, Reply.members, Json.entries?, Option.getD_some,
        Option.bind_some]
      cases Bson.ofFields? fields <;> rfl
    | null | bool | int | float | str | arr => rfl

namespace Resolver

variable {r : Resolver} {text : String} {b : Backend} {call : Call} {entries : Entries Json}

/-- A specification in a query has each name once. -/
theorem nodup_keys_of_parse (hparse : Query.parse text = .ok (.call call))
    (hparameters : call.parameters = [.obj entries]) : (Entries.keys entries).Nodup := by
  have hwf := Query.wellFormed_of_parse hparse
  rw [hparameters] at hwf
  exact (hwf _ List.mem_cons_self).nodup_keys

/-- What a well-typed specification asks for is the command of what is looked up in it. -/
theorem request_of_wellTyped (hparse : Query.parse text = .ok (.call call))
    (hop : call.operation = .findAndModify) (hparameters : call.parameters = [.obj entries])
    (htyped : WellTyped entries) :
    r.request text = r.databaseFor call.database >>= fun database =>
      ((Specification.lookedUp entries).command ⟨database, call.collection⟩).map .send := by
  have hnodup := nodup_keys_of_parse hparse hparameters
  rw [request_of_parse hparse, callRequest]
  refine congrArg (r.databaseFor call.database).bind (funext fun database => ?_)
  simp only [operationRequest, hop, Call.findAndModifyRequest, hparameters,
    Specification.ofEntries_eq_lookedUp hnodup htyped, mapError_ok, bind, Except.bind]
  cases (Specification.lookedUp entries).command ⟨database, call.collection⟩ <;> rfl

/-- A well-typed specification sends the commands that it translates to and that are taken. -/
theorem mem_commands_iff_translates (hparse : Query.parse text = .ok (.call call))
    (hop : call.operation = .findAndModify) (hparameters : call.parameters = [.obj entries])
    (htyped : WellTyped entries) {c : Command} :
    c ∈ r.commands text b ↔
      ∃ database, r.databaseFor call.database = .ok database ∧
      ∃ query change options, Translates entries query change options ∧ IsTaken change options ∧
        .findAndModify ⟨database, call.collection⟩ query change options = c := by
  have hrequest {request : Request} : r.request text = .ok request ↔
      ∃ database, r.databaseFor call.database = .ok database ∧
      ∃ command, (Specification.lookedUp entries).command ⟨database, call.collection⟩ =
        .ok command ∧ .send command = request := by
    simp only [request_of_wellTyped hparse hop hparameters htyped, bind_eq_ok_iff, map_eq_ok_iff]
  constructor
  · intro h
    obtain ⟨asked, hasked, rfl⟩ := mem_commands_iff.mp h
    obtain ⟨database, hdatabase, command, hcommand, heq⟩ := hrequest.mp hasked
    cases heq
    obtain ⟨query, change, options, htranslates, htaken, rfl⟩ :=
      Specification.translates_of_command htyped hcommand
    -- only documents to insert are changed on their way
    exact ⟨database, hdatabase, query, change, options, htranslates, htaken, rfl⟩
  · rintro ⟨database, hdatabase, query, change, options, htranslates, htaken, rfl⟩
    rw [mem_commands_iff_of_not_insert (by simp [Command.operation?])]
    exact hrequest.mpr ⟨database, hdatabase, _,
      Specification.command_of_translates htyped htranslates htaken, rfl⟩

/-- A well-typed specification is translated faithfully.  It sends exactly the command that it
    stands for, part by part.  That does not change with the order of the entries, with entries of
    names without a meaning, or, for a removal, with what has a meaning for an update only.  The
    result is the document that the reply returns, `null` when it returns none. -/
theorem findAndModify_translates (r : Resolver) (text : String) (b : Backend) (call : Call)
    (entries : Entries Json) (hparse : Query.parse text = .ok (.call call))
    (hop : call.operation = .findAndModify) (hparameters : call.parameters = [.obj entries])
    (htyped : WellTyped entries) :
    (∀ c, c ∈ r.commands text b ↔
      ∃ database, r.databaseFor call.database = .ok database ∧
      ∃ query change options, Translates entries query change options ∧ IsTaken change options ∧
        .findAndModify ⟨database, call.collection⟩ query change options = c) ∧
    (∀ text' more extra,
      Query.parse text' = .ok (.call { call with parameters := [.obj more] }) →
      more.Perm (entries ++ extra) →
      (∀ name ∈ Entries.keys extra, name ∉ Specification.names) →
      r.resolve text' b = r.resolve text b) ∧
    (AsksForRemoval entries → ∀ text' more,
      Query.parse text' = .ok (.call { call with parameters := [.obj more] }) →
      WellTyped more →
      (∀ name ∈ Specification.names, name ∉ Specification.updateNames →
        Entries.find? more name = Entries.find? entries name) →
      r.resolve text' b = r.resolve text b) ∧
    (∀ c reply rest, c ∈ r.commands text b → b.replies = reply :: rest →
      Reply.commandFailure? reply = none →
      (r.resolve text b).1 =
        .ok (Document.optionalJson (Reply.document? (Reply.members reply) "value"))) := by
  have hrequest := request_of_wellTyped (r := r) hparse hop hparameters htyped
  refine ⟨fun c => mem_commands_iff_translates hparse hop hparameters htyped, ?_, ?_, ?_⟩
  · intro text' more extra hparse' hperm hextra
    apply resolve_congr
    rw [hrequest, request_of_wellTyped hparse' hop rfl (htyped.of_perm hperm hextra),
      Specification.lookedUp_perm hperm (nodup_keys_of_parse hparse' rfl) hextra]
  · intro hremove text' more hparse' htyped' hsame
    apply resolve_congr
    rw [hrequest, request_of_wellTyped hparse' hop rfl htyped']
    simp only [Specification.command_lookedUp_of_removal hremove hsame]
  · intro c reply rest hmem hreplies haccepted
    obtain ⟨database, -, query, change, options, -, -, rfl⟩ :=
      (mem_commands_iff_translates hparse hop hparameters htyped).mp hmem
    rw [mem_commands_iff_of_not_insert (by simp [Command.operation?])] at hmem
    rw [resolve_of_send hmem]
    simp only [Backend.step, Command.stamp, hreplies, Command.result, haccepted,
      Command.resultOf_findAndModify]
    rfl

/-! ## Specifications in texts -/

/-- An update with a flag and a `null`. -/
def updateText : String :=
  "c.findAndModify(\x7b\"update\":\x7b\"b\":\"x\"\x7d,\"new\":1,\"sort\":null\x7d)"

/-- The entries of that update. -/
def updateEntries : Entries Json :=
  [("update", .obj [("b", .str "x")]), ("new", .int 1), ("sort", .null)]

/-- The same update in another order and with an entry of a name without a meaning. -/
def reorderedText : String :=
  "c.findAndModify(\x7b\"n\":5,\"sort\":null,\"new\":1,\"update\":\x7b\"b\":\"x\"\x7d\x7d)"

/-- A removal. -/
def removalText : String :=
  "c.findAndModify(\x7b\"remove\":1\x7d)"

/-- The same removal with a flag that has a meaning for an update only. -/
def flaggedRemovalText : String :=
  "c.findAndModify(\x7b\"new\":1,\"remove\":1\x7d)"

theorem parse_updateText :
    Query.parse updateText = .ok (.call ⟨none, "c", .findAndModify, [.obj updateEntries], ""⟩) := by
  have htokens : Json.tokens
      "[\x7b\"update\":\x7b\"b\":\"x\"\x7d,\"new\":1,\"sort\":null\x7d]".toList =
      some [.openArray, .openObject, .leaf (.str "update"), .colon, .openObject, .leaf (.str "b"),
        .colon, .leaf (.str "x"), .closeObject, .comma, .leaf (.str "new"), .colon, .leaf (.int 1),
        .comma, .leaf (.str "sort"), .colon, .leaf .null, .closeObject, .closeArray] := by rfl
  exact Query.parse_of_block .findAndModify updateText
    "\x7b\"update\":\x7b\"b\":\"x\"\x7d,\"new\":1,\"sort\":null\x7d" (by decide) htokens rfl

theorem parse_reorderedText :
    Query.parse reorderedText = .ok (.call
      ⟨none, "c", .findAndModify, [.obj (updateEntries ++ [("n", Json.int 5)]).reverse], ""⟩) := by
  have htokens : Json.tokens
      "[\x7b\"n\":5,\"sort\":null,\"new\":1,\"update\":\x7b\"b\":\"x\"\x7d\x7d]".toList =
      some [.openArray, .openObject, .leaf (.str "n"), .colon, .leaf (.int 5), .comma,
        .leaf (.str "sort"), .colon, .leaf .null, .comma, .leaf (.str "new"), .colon,
        .leaf (.int 1), .comma, .leaf (.str "update"), .colon, .openObject, .leaf (.str "b"),
        .colon, .leaf (.str "x"), .closeObject, .closeObject, .closeArray] := by rfl
  exact Query.parse_of_block .findAndModify reorderedText
    "\x7b\"n\":5,\"sort\":null,\"new\":1,\"update\":\x7b\"b\":\"x\"\x7d\x7d" (by decide) htokens rfl

theorem parse_removalText :
    Query.parse removalText =
      .ok (.call ⟨none, "c", .findAndModify, [.obj [("remove", .int 1)]], ""⟩) := by
  have htokens : Json.tokens "[\x7b\"remove\":1\x7d]".toList = some [.openArray, .openObject,
      .leaf (.str "remove"), .colon, .leaf (.int 1), .closeObject, .closeArray] := by rfl
  exact Query.parse_of_block .findAndModify removalText "\x7b\"remove\":1\x7d" (by decide) htokens
    rfl

theorem parse_flaggedRemovalText :
    Query.parse flaggedRemovalText =
      .ok (.call
        ⟨none, "c", .findAndModify, [.obj [("new", .int 1), ("remove", .int 1)]], ""⟩) := by
  have htokens : Json.tokens "[\x7b\"new\":1,\"remove\":1\x7d]".toList = some [.openArray,
      .openObject, .leaf (.str "new"), .colon, .leaf (.int 1), .comma, .leaf (.str "remove"),
      .colon, .leaf (.int 1), .closeObject, .closeArray] := by rfl
  exact Query.parse_of_block .findAndModify flaggedRemovalText "\x7b\"new\":1,\"remove\":1\x7d"
    (by decide) htokens rfl

/-- A flag that is an integer fits its name. -/
theorem fitsEntry_int {name : String} (h : name ∈ ["remove", "new", "upsert"]) (i : Int) :
    FitsEntry name (.int i) := by
  simp only [List.mem_cons, List.not_mem_nil, or_false] at h
  obtain rfl | rfl | rfl := h <;> exact ⟨fun _ => .int i, by simp, by simp, by simp⟩

theorem wellTyped_updateEntries : WellTyped updateEntries := by
  intro name v hmem
  simp only [updateEntries, List.mem_cons, List.not_mem_nil, or_false, Prod.mk.injEq] at hmem
  obtain ⟨rfl, rfl⟩ | ⟨rfl, rfl⟩ | ⟨rfl, rfl⟩ := hmem
  · exact ⟨by simp, by simp, by simp, by simp⟩
  · exact fitsEntry_int (by simp) 1
  · exact ⟨by simp, by simp, by simp, by simp⟩

theorem translates_updateEntries :
    Translates updateEntries []
      (.update [("$set", .document [("b", .string "x")])] true false none)
      ⟨none, none, none, none⟩ := by
  have hremove : ¬ AsksForRemoval updateEntries := by
    rintro ⟨v, hv, -⟩
    cases hv
  have hupsert : ¬ IsSet updateEntries "upsert" := by
    rintro ⟨v, hv, -⟩
    cases hv
  exact .update rfl hremove rfl (iff_of_true rfl ⟨.int 1, rfl, .int (by decide)⟩)
    (iff_of_false Bool.false_ne_true hupsert) .leftOut
    ⟨⟨none, .leftOut, rfl⟩, .null, .leftOut, .leftOut, .leftOut⟩

/-- An update is sent with what its entries ask for, in whatever order they stand.  A removal is the
    same with and without a flag for updates, and its result is the document that is returned. -/
theorem findAndModify_translates_both_changes :
    (∃ call entries, Query.parse updateText = .ok (.call call) ∧
      call.operation = .findAndModify ∧ call.parameters = [.obj entries] ∧ WellTyped entries ∧
      .findAndModify ⟨"d", "c"⟩ []
          (.update [("$set", .document [("b", .string "x")])] true false none)
          ⟨none, none, none, none⟩ ∈
        Resolver.commands ⟨some "d", false⟩ updateText (.fresh []) ∧
      Resolver.resolve ⟨some "d", false⟩ reorderedText (.fresh []) =
        Resolver.resolve ⟨some "d", false⟩ updateText (.fresh [])) ∧
    ∃ call entries, Query.parse removalText = .ok (.call call) ∧
      call.operation = .findAndModify ∧ call.parameters = [.obj entries] ∧ WellTyped entries ∧
      AsksForRemoval entries ∧
      Resolver.resolve ⟨some "d", false⟩ flaggedRemovalText (.fresh []) =
        Resolver.resolve ⟨some "d", false⟩ removalText (.fresh []) ∧
      (Resolver.resolve ⟨some "d", false⟩ removalText
        (.fresh [.obj [("value", .obj [("a", .str "x")])]])).1 = .ok (.obj [("a", .str "x")]) := by
  constructor
  · obtain ⟨hcommands, hreordered, -, -⟩ := findAndModify_translates ⟨some "d", false⟩ _ (.fresh [])
      _ _ parse_updateText rfl rfl wellTyped_updateEntries
    refine ⟨_, _, parse_updateText, rfl, rfl, wellTyped_updateEntries, ?_, ?_⟩
    · refine (hcommands _).mpr ⟨"d", rfl, _, _, _, translates_updateEntries, ⟨?_, by simp⟩, rfl⟩
      intro _ _ _ _ hchange
      cases hchange
      exact List.cons_ne_nil _ _
    · exact hreordered _ _ [("n", .int 5)] parse_reorderedText (List.reverse_perm _) (by decide)
  · have htyped : WellTyped [("remove", .int 1)] := by
      intro name v hmem
      cases List.mem_singleton.mp hmem
      exact fitsEntry_int (by simp) 1
    have hflagged : WellTyped [("new", .int 1), ("remove", .int 1)] := by
      intro name v hmem
      simp only [List.mem_cons, List.not_mem_nil, or_false, Prod.mk.injEq] at hmem
      obtain ⟨rfl, rfl⟩ | ⟨rfl, rfl⟩ := hmem <;> exact fitsEntry_int (by simp) 1
    have hremove : AsksForRemoval [("remove", .int 1)] := ⟨.int 1, rfl, .int (by decide)⟩
    have htranslates := fun b => findAndModify_translates ⟨some "d", false⟩ _ b _ _
      parse_removalText rfl rfl htyped
    refine ⟨_, _, parse_removalText, rfl, rfl, htyped, hremove, ?_, ?_⟩
    · refine (htranslates _).2.2.1 hremove _ _ parse_flaggedRemovalText hflagged ?_
      intro name _ hname
      have hne : "new" ≠ name := fun h => hname (h ▸ List.mem_cons_self)
      rw [Entries.find?, if_neg hne]
    · have hsent := ((htranslates (.fresh [.obj [("value", .obj [("a", .str "x")])]])).1 _).mpr
        ⟨"d", rfl, [], .remove, ⟨none, none, none, none⟩, .remove hremove ?_
          ⟨⟨none, .leftOut, rfl⟩, .leftOut, .leftOut, .leftOut, .leftOut⟩, ⟨by simp, by simp⟩, rfl⟩
      · exact (htranslates _).2.2.2 _ _ _ hsent rfl rfl
      · rintro ⟨fields, hfields⟩
        cases hfields

end Resolver

end ShellQuery
