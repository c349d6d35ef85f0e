import ShellQuery.Proofs.Backend.InsertedIds
import ShellQuery.Proofs.Backend.Results
import ShellQuery.Proofs.Query.Call

/-!
# Insertions

The documents of an insertion are sent in the order of the query, each with an `_id`: its own, or
the next one that the client makes up (`SentFor`).  When the backend accepts them, the summary has
one key for each, in the same order.

The main statement is `insert_reports_keys`.
-/

namespace ShellQuery

open Outcome

/-! ## Documents to insert -/

/-- The call inserts the items: one list of them, or a single object. -/
def Call.Inserts (call : Call) (items : List Json) : Prop :=
  call.operation = .insert ∧
    (call.parameters = [.arr items] ∨ ∃ fields, items = [.obj fields] ∧ call.parameters = items)

theorem Call.Inserts.documents {call : Call} {items : List Json} (h : call.Inserts items) :
    call.insertDocuments = Document.convertAll items := by
  obtain ⟨-, hparameters | ⟨fields, rfl, hparameters⟩⟩ := h
  · rw [insertDocuments, hparameters]
  · rw [insertDocuments, hparameters]

/-- The documents as they are sent for the items.  A document without an `_id` gets one in front,
    which is the next that is made up, the one with the number `n` for the first of them. -/
inductive SentFor (ids : Command.IdSupply) : Nat → List Json → List Document → Prop where
  | nil (n : Nat) : SentFor ids n [] []
  | kept {n : Nat} {v : Json} {d : Document} {items : List Json} {sent : List Document}
      (hconvert : Document.convert v = .ok d) (hid : v.property? "_id" ≠ none)
      (hrest : SentFor ids n items sent) : SentFor ids n (v :: items) (d :: sent)
  | made {n : Nat} {v : Json} {d : Document} {items : List Json} {sent : List Document}
      (hconvert : Document.convert v = .ok d) (hid : v.property? "_id" = none)
      (hrest : SentFor ids (n + 1) items sent) :
      SentFor ids n (v :: items) ((("_id", .objectId (ids n)) :: d) :: sent)

/-- A document has the names of the object that it is converted from. -/
theorem Document.find?_eq_none_of_convert {v : Json} {d : Document} (h : convert v = .ok d)
    (name : String) : Entries.find? d name = none ↔ v.property? name = none := by
  obtain ⟨entries, rfl, hfields⟩ := exists_fields_of_convert h
  rw [Json.property?, Entries.find?_eq_none_iff, Entries.find?_eq_none_iff, keys_of_convert h]

namespace SentFor

variable {ids : Command.IdSupply} {n : Nat} {items : List Json} {sent : List Document}

theorem length_eq (h : SentFor ids n items sent) : sent.length = items.length := by
  induction h with
  | nil => rfl
  | kept _ _ _ ih => rw [List.length_cons, List.length_cons, ih]
  | made _ _ _ ih => rw [List.length_cons, List.length_cons, ih]

/-- All documents are sent with an `_id`. -/
theorem exists_id (h : SentFor ids n items sent) :
    ∀ d ∈ sent, ∃ id, Entries.find? d "_id" = some id := by
  induction h with
  | nil => exact nofun
  | kept hconvert hid _ ih =>
    rw [ne_eq, ← Document.find?_eq_none_of_convert hconvert] at hid
    exact List.forall_mem_cons.mpr ⟨Option.ne_none_iff_exists'.mp hid, ih⟩
  | made _ _ _ ih => exact List.forall_mem_cons.mpr ⟨⟨_, if_pos rfl⟩, ih⟩

end SentFor

namespace Command

theorem length_stampAll (ids : IdSupply) (documents : List Document) :
    (stampAll ids documents).1.length = documents.length := by
  induction documents generalizing ids with
  | nil => rfl
  | cons first rest ih => simp only [stampAll, List.length_cons, ih]

/-- The client sends converted documents in this way. -/
theorem sentFor_stampAll {ids : IdSupply} {n : Nat} {items : List Json} {documents : List Document}
    (h : List.Forall₂ (fun v d => Document.convert v = .ok d) items documents) :
    SentFor ids n items (stampAll (fun k => ids (n + k)) documents).1 := by
  induction h generalizing n with
  | nil => exact .nil n
  | @cons v d items documents hconvert _ ih =>
    have hnone := Document.find?_eq_none_of_convert hconvert "_id"
    rw [stampAll]
    by_cases hid : v.property? "_id" = none
    · have hhas : Entries.has d "_id" = false := by rw [Entries.has, hnone.mpr hid]; rfl
      have hrest : (IdSupply.rest fun k => ids (n + k)) = fun k => ids (n + 1 + k) := by
        funext k
        rw [IdSupply.rest, Nat.add_right_comm, Nat.add_assoc]
      rw [stampDocument, hhas, if_neg Bool.false_ne_true, hrest]
      exact .made hconvert hid ih
    · have hhas : Entries.has d "_id" = true := by
        rw [Entries.has, Option.isSome_iff_ne_none, ne_eq, hnone]
        exact hid
      rw [stampDocument, hhas, if_pos rfl]
      exact .kept hconvert hid ih

end Command

/-! ## Summaries of insertions -/

/-- The key of an id: the digits of an object id, a text itself, and for any other id its JSON. -/
inductive IsKey : Bson → String → Prop where
  | objectId (id : ObjectId) : IsKey (.objectId id) id.text
  | string (s : String) : IsKey (.string s) s
  | other {id : Bson} (hobjectId : ∀ o, id ≠ .objectId o) (hstring : ∀ s, id ≠ .string s) :
      IsKey id id.relaxed.compact

theorem isKey_idKey (id : Bson) : IsKey id (Reply.idKey id) := by
  cases id with
  | objectId o => exact .objectId o
  | string s => exact .string s
  | _ => exact .other nofun nofun

/-- The keys of documents that have an `_id`. -/
theorem forall₂_isKey {sent : List Document}
    (h : ∀ d ∈ sent, ∃ id, Entries.find? d "_id" = some id) :
    List.Forall₂ (fun d key => ∃ id, Entries.find? d "_id" = some id ∧ IsKey id key) sent
      (sent.map Reply.documentKey) := by
  rw [List.forall₂_map_right_iff, List.forall₂_same]
  intro d hd
  obtain ⟨id, hid⟩ := h d hd
  refine ⟨id, hid, ?_⟩
  rw [Reply.documentKey, hid]
  exact isKey_idKey id

/-- The summary of an insertion that has succeeded. -/
def Reply.inserted (documents : List Document) : WriteSummary :=
  ⟨documents.length.toUInt64, documents.map documentKey⟩

/-- The reply to an insertion reports no failure. -/
structure Reply.AcceptsInsert (reply : Json) : Prop where
  command : commandFailure? reply = none
  writes : insertFailure? (members reply) = none

/-- An insertion succeeds when its reply accepts it, with the summary of the documents as they are
    sent. -/
theorem Backend.step_insert_eq_ok_iff {b : Backend} {ns : Namespace} {documents : List Document}
    {v : Json} :
    (b.step (.insert ns documents)).1 = .ok v ↔
      (∃ reply rest, b.replies = reply :: rest ∧ Reply.AcceptsInsert reply) ∧
        v = (Reply.inserted (Command.stampAll b.ids documents).1).toJson := by
  simp only [step, Command.stamp]
  cases b.replies with
  | nil => simp [exhausted]
  | cons reply rest =>
    have haccepts : (∃ reply' rest', reply :: rest = reply' :: rest' ∧
        Reply.AcceptsInsert reply') ↔ Reply.AcceptsInsert reply := by simp
    rw [haccepts]
    cases hcommand : Reply.commandFailure? reply with
    | some failure =>
      have hnot : ¬ Reply.AcceptsInsert reply := fun h => by simp [h.command] at hcommand
      simp [Command.result, hcommand, hnot]
    | none =>
      cases hwrites : Reply.insertFailure? (Reply.members reply) with
      | some failure =>
        have hnot : ¬ Reply.AcceptsInsert reply := fun h => by simp [h.writes] at hwrites
        simp [Command.result, hcommand, Command.resultOf, hwrites, hnot]
      | none =>
        have hyes : Reply.AcceptsInsert reply := ⟨hcommand, hwrites⟩
        simp [Command.result, hcommand, Command.resultOf, hwrites, hyes,
          Reply.insertedKeys_of_perm (.refl _), Reply.inserted, eq_comm]

namespace Resolver

variable {r : Resolver} {text : String} {b : Backend} {call : Call} {items : List Json}

/-- An insertion of something asks for one command, when there is a database and all its items can
    be converted. -/
theorem request_eq_ok_iff_of_inserts {request : Request}
    (hparse : Query.parse text = .ok (.call call)) (hcall : call.Inserts items)
    (hitems : items ≠ []) :
    r.request text = .ok request ↔
      ∃ database documents, r.databaseFor call.database = .ok database ∧
        Document.convertAll items = .ok documents ∧
        request = .send (.insert ⟨database, call.collection⟩ documents) := by
  rw [request_of_parse hparse, callRequest_eq_ok_iff]
  apply exists_congr
  intro database
  rw [exists_and_left]
  apply and_congr_right
  intro _
  simp only [operationRequest, hcall.1, Call.insertRequest_eq_ok_iff, hcall.documents]
  apply exists_congr
  intro documents
  apply and_congr_right
  intro hdocuments
  have hne : documents ≠ [] := by
    rw [← List.length_pos_iff, Document.length_of_convertAll hdocuments]
    exact List.length_pos_iff.mpr hitems
  simp [hne, eq_comm]

/-- An insertion that succeeds has sent its documents, all with ids, and reports their keys. -/
theorem insertion_of_resolve {v : Json} (hparse : Query.parse text = .ok (.call call))
    (hcall : call.Inserts items) (hitems : items ≠ []) (h : (r.resolve text b).1 = .ok v) :
    ∃ ns documents, Document.convertAll items = .ok documents ∧
      r.commands text b = [.insert ns (Command.stampAll b.ids documents).1] ∧
      v = (Reply.inserted (Command.stampAll b.ids documents).1).toJson := by
  cases hrequest : r.request text with
  | error e =>
    rw [resolve_of_request_error b hrequest] at h
    cases h
  | ok request =>
    obtain ⟨database, documents, -, hdocuments, rfl⟩ :=
      (request_eq_ok_iff_of_inserts hparse hcall hitems).mp hrequest
    rw [resolve_of_send hrequest] at h
    exact ⟨_, documents, hdocuments, commands_of_send hrequest,
      (Backend.step_insert_eq_ok_iff.mp (mapError_eq_ok_iff.mp h)).2⟩

/-- An insertion that the backend accepts sends one document for each item, in their order, and
    reports as many documents and the keys of their ids, in whatever order the ids come back. -/
theorem insert_reports_keys (r : Resolver) (text : String) (b : Backend) (call : Call)
    (items : List Json) (database : String) (reply : Json) (rest : List Json)
    (hparse : Query.parse text = .ok (.call call)) (hcall : call.Inserts items)
    (hitems : items ≠ []) (hconvert : ∀ v ∈ items, ∃ d, Document.convert v = .ok d)
    (hdatabase : r.databaseFor call.database = .ok database) (hreplies : b.replies = reply :: rest)
    (haccepts : Reply.AcceptsInsert reply) :
    ∃ (sent : List Document) (summary : WriteSummary),
      r.commands text b = [.insert ⟨database, call.collection⟩ sent] ∧
      sent.length = items.length ∧ SentFor b.ids 0 items sent ∧
      (r.resolve text b).1 = .ok summary.toJson ∧
      summary.count = items.length.toUInt64 ∧
      (items.length < 2 ^ 64 → summary.count.toNat = items.length) ∧
      summary.keys.length = items.length ∧
      List.Forall₂ (fun d key => ∃ id, Entries.find? d "_id" = some id ∧ IsKey id key) sent
        summary.keys ∧
      ∀ ids, ids.Perm (Reply.insertedIds sent) → Reply.insertedKeys ids = summary.keys := by
  obtain ⟨documents, hdocuments⟩ := Document.exists_convertAll hconvert
  have hrequest := (request_eq_ok_iff_of_inserts hparse hcall hitems).mpr
    ⟨database, documents, hdatabase, hdocuments, rfl⟩
  -- the supply of ids is used from its beginning
  have hsent : SentFor b.ids 0 items (Command.stampAll b.ids documents).1 := by
    have hstamped : SentFor b.ids 0 items
        (Command.stampAll (fun k => b.ids (0 + k)) documents).1 :=
      Command.sentFor_stampAll (Document.convertAll_eq_ok_iff.mp hdocuments)
    simpa only [Nat.zero_add] using hstamped
  refine ⟨_, Reply.inserted (Command.stampAll b.ids documents).1, commands_of_send hrequest,
    hsent.length_eq, hsent, ?_, ?_, ?_, ?_, ?_, ?_⟩
  · rw [resolve_of_send hrequest]
    exact mapError_eq_ok_iff.mpr
      (Backend.step_insert_eq_ok_iff.mpr ⟨⟨reply, rest, hreplies, haccepts⟩, rfl⟩)
  · rw [Reply.inserted, hsent.length_eq]
  · intro hbound
    rw [Reply.inserted, hsent.length_eq]
    exact UInt64.toNat_ofNat_of_lt' hbound
  · rw [Reply.inserted, List.length_map, hsent.length_eq]
  · exact forall₂_isKey hsent.exists_id
  · intro ids hids
    exact Reply.insertedKeys_of_perm hids

/-- Four documents to insert: one without an id, two with the same one and one with a text. -/
def blockOfFour : String :=
  "[\x7b\"a\":1\x7d,\x7b\"_id\":null\x7d,\x7b\"_id\":\"k\"\x7d,\x7b\"_id\":null\x7d]"

theorem insert_reports_keys_of_four :
    ∃ (sent : List Document) (summary : WriteSummary),
      Resolver.commands ⟨some "d", false⟩ ("c.insert(" ++ blockOfFour ++ ")")
          (.fresh [.obj []]) = [.insert ⟨"d", "c"⟩ sent] ∧
        sent.length = 4 ∧
        (Resolver.resolve ⟨some "d", false⟩ ("c.insert(" ++ blockOfFour ++ ")")
          (.fresh [.obj []])).1 = .ok summary.toJson ∧
        summary.count.toNat = 4 ∧ summary.keys.length = 4 ∧
        ∀ ids, ids.Perm (Reply.insertedIds sent) → Reply.insertedKeys ids = summary.keys := by
  have htokens : Json.tokens ('[' :: (blockOfFour.toList ++ [']'])) = some [.openArray, .openArray,
      .openObject, .leaf (.str "a"), .colon, .leaf (.int 1), .closeObject, .comma,
      .openObject, .leaf (.str "_id"), .colon, .leaf .null, .closeObject, .comma,
      .openObject, .leaf (.str "_id"), .colon, .leaf (.str "k"), .closeObject, .comma,
      .openObject, .leaf (.str "_id"), .colon, .leaf .null, .closeObject, .closeArray,
      .closeArray] := by rfl
  have hparse := Query.parse_of_block .insert ("c.insert(" ++ blockOfFour ++ ")") blockOfFour
    (by decide) htokens rfl
  have hconvert : ∀ v ∈ [Json.obj [("a", .int 1)], .obj [("_id", .null)], .obj [("_id", .str "k")],
      .obj [("_id", .null)]], ∃ d, Document.convert v = .ok d := by
    simp only [List.forall_mem_cons, List.not_mem_nil, false_implies, implies_true, and_true]
    exact ⟨⟨_, rfl⟩, ⟨_, rfl⟩, ⟨_, rfl⟩, ⟨_, rfl⟩⟩
  obtain ⟨sent, summary, hcommands, hlength, -, hresolve, -, hcount, hkeys, -, horder⟩ :=
    insert_reports_keys ⟨some "d", false⟩ _ (.fresh [.obj []]) _ _ "d" (.obj []) [] hparse
      ⟨rfl, .inl rfl⟩ (List.cons_ne_nil _ _) hconvert rfl rfl ⟨rfl, rfl⟩
  exact ⟨sent, summary, hcommands, hlength, hresolve, hcount (by decide), hkeys, horder⟩

end Resolver

end ShellQuery
