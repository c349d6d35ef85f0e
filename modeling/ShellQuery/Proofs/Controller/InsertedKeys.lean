import ShellQuery.Proofs.Controller.Reads
import ShellQuery.Proofs.Query.Call
import ShellQuery.Proofs.Resolver.Insertions
import ShellQuery.Proofs.Result.Summary

/-!
# Keys of inserted documents

An insertion reports a key for each document.  When a `find` gives the documents back, on a
controller that replaces object ids, each of them has its key under `id`: the id that stood in the
query in digits of either case, or the one that was made up for a document without an id.

The two sides write an id in ways of their own.  `HasObjectId.property?_id` says that they agree.
-/

namespace ShellQuery

/-! ## Ids of documents -/

/-- The document has an object id under `_id`. -/
def Document.HasObjectId (d : Document) : Prop :=
  ∃ id, Entries.find? d "_id" = some (.objectId id)

/-- The value is an object that has no `_id`, or an object id in its wrapper there. -/
def Json.IdAbsentOrWrapped (v : Json) : Prop :=
  ∃ entries, v = .obj entries ∧
    (Entries.find? entries "_id" = none ∨
      ∃ digits, Entries.find? entries "_id" = some (.obj [("$oid", .str digits)]))

namespace Document

variable {d : Document}

theorem id_of_convert {v : Json} (hv : v.IdAbsentOrWrapped) (h : convert v = .ok d) :
    Entries.find? d "_id" = none ∨ d.HasObjectId := by
  obtain ⟨entries, rfl, hid⟩ := hv
  obtain ⟨_, heq, hfields⟩ := exists_fields_of_convert h
  cases heq
  have hfind := Bson.find?_of_ofFields? hfields "_id"
  obtain hnone | ⟨digits, hdigits⟩ := hid
  · rw [hnone] at hfind
    exact .inl hfind
  · -- the wrapper is looked for first, so its value is an id or the conversion fails
    have hread : Bson.ofJson? (.obj [("$oid", .str digits)]) =
        (ObjectId.read? digits).map .objectId := rfl
    rw [hdigits, Option.bind_some, hread] at hfind
    cases hid : ObjectId.read? digits with
    | none =>
      rw [hid] at hfind
      exact .inl hfind
    | some id =>
      rw [hid] at hfind
      exact .inr ⟨id, hfind⟩

/-- The key in the report and the property in the result are both the text of the object id. -/
theorem HasObjectId.property?_id (h : d.HasObjectId) :
    (d.toJson.normalize .idOnly).property? "id" = some (.str (Reply.documentKey d)) := by
  obtain ⟨id, hid⟩ := h
  have hkey : Reply.documentKey d = id.text := by
    rw [Reply.documentKey, hid]
    rfl
  have hplain := Bson.plain_of_id hid
  rw [Bson.plain] at hplain
  rw [toJson, hplain, hkey, Json.property?, Entries.find?_put_self]

end Document

/-! ## Ids that are made up -/

namespace Command

theorem hasObjectId_stampDocument (ids : IdSupply) {d : Document}
    (h : Entries.find? d "_id" = none ∨ d.HasObjectId) : (stampDocument ids d).1.HasObjectId := by
  unfold stampDocument
  split
  · next hhas =>
    -- the document keeps the id that it has
    obtain hnone | hid := h
    · rw [Entries.has, hnone] at hhas
      cases hhas
    · exact hid
  · exact ⟨ids 0, by rw [Entries.find?, if_pos rfl]⟩

/-- Documents that are sent for insertion all have an object id. -/
theorem hasObjectId_stampAll {documents : List Document} (ids : IdSupply)
    (h : ∀ d ∈ documents, Entries.find? d "_id" = none ∨ d.HasObjectId) :
    ∀ d ∈ (stampAll ids documents).1, d.HasObjectId := by
  induction documents generalizing ids with
  | nil => exact nofun
  | cons first rest ih =>
    rw [List.forall_mem_cons] at h
    simp only [stampAll, List.forall_mem_cons]
    exact ⟨hasObjectId_stampDocument ids h.1, ih _ h.2⟩

end Command

namespace Controller

/-! ## Main result -/

/-- When a `find` gives back the documents that an insertion has sent, each has under `id` the key
    that the summary of the insertion reports for it, in the same order. -/
theorem inserted_keys_read_back (c : Controller) (r : Resolver) (text : String) (b : Backend)
    (call : Call) (items : List Json) (summary : WriteSummary) (hresolver : c.resolver = some r)
    (hnormalize : c.normalizeIds = true) (hparse : Query.parse text = .ok (.call call))
    (hcall : call.Inserts items) (hitems : items ≠ []) (hids : ∀ v ∈ items, v.IdAbsentOrWrapped)
    (hupdate : (c.update text b).1 = .ok (some summary)) :
    ∃ ns documents, r.commands text b = [.insert ns documents] ∧
      ∀ (search : String) (b' : Backend) (ns' : Namespace) (filter : Document)
        (projection : Option Document) (modifiers : Modifiers) (reply : Json) (rest : List Json),
        .find ns' filter projection modifiers ∈ r.commands search b' → b'.replies = reply :: rest →
        Reply.Delivers reply documents →
        ∃ results, (c.query search b').1 = .ok (.arr results) ∧
          results.length = items.length ∧
          results.map (·.property? "id") = summary.keys.map (fun key => some (.str key)) ∧
          summary.count = results.length.toUInt64 := by
  have hsummary : (c.update text b).1 =
      (r.resolve text b).1.bind (WriteSummary.ofResult c.normalizeIds) := by
    rw [update, resolve, hresolver]
  rw [hupdate] at hsummary
  cases hresolve : (r.resolve text b).1 with
  | error e =>
    rw [hresolve] at hsummary
    cases hsummary
  | ok v =>
    obtain ⟨ns, documents, hdocuments, hcommands, rfl⟩ :=
      Resolver.insertion_of_resolve hparse hcall hitems hresolve
    rw [hresolve, Except.bind, WriteSummary.ofResult_toJson] at hsummary
    -- what was reported is the summary of the documents that were sent
    cases hsummary
    refine ⟨ns, _, hcommands, ?_⟩
    intro search b' ns' filter projection modifiers reply rest hfind hreplies hreply
    have hquery := query_find hresolver hnormalize hfind hreplies hreply
    have hlength : (Command.stampAll b.ids documents).1.length = items.length := by
      rw [Command.length_stampAll, Document.length_of_convertAll hdocuments]
    -- each document that was sent has an object id, its own or one that was made up
    have hids' : ∀ d ∈ (Command.stampAll b.ids documents).1, d.HasObjectId := by
      refine Command.hasObjectId_stampAll b.ids fun d hd => ?_
      obtain ⟨v, hv, hconvert⟩ := Document.mem_of_convertAll hdocuments hd
      exact Document.id_of_convert (hids v hv) hconvert
    refine ⟨_, hquery, by rw [List.length_map, hlength], ?_, by rw [List.length_map]; rfl⟩
    -- so for each of them the report and the result agree
    simp only [Reply.inserted, List.map_map]
    exact List.map_congr_left fun d hd => (hids' d hd).property?_id

/-- The two documents to insert, one without an id and one with an id in upper-case digits and a
    member `id`. -/
def blockOfTwo : String :=
  "[\x7b\"a\":\"x\"\x7d," ++
    "\x7b\"_id\":\x7b\"$oid\":\"5F1D7F0E2C8B9A0012345678\"\x7d,\"id\":\"y\"\x7d]"

/-- A backend whose client makes up an id that can be written in JSON. -/
def backendWithId : Backend :=
  ⟨[.obj []], [], fun _ => .hex "5f1d7f0e2c8b9a0012345670"⟩

/-- The two documents as the backend gives them back. -/
def replyOfTwo : Json :=
  .obj [("docs", .arr [
    .obj [("_id", .obj [("$oid", .str "5f1d7f0e2c8b9a0012345670")]), ("a", .str "x")],
    .obj [("_id", .obj [("$oid", .str "5f1d7f0e2c8b9a0012345678")]), ("id", .str "y")]])]

/-- The keys of two documents are read back, the one that was made up and the one of the query. -/
theorem inserted_keys_read_back_twice :
    (Controller.update ⟨some ⟨some "d", false⟩, .fresh, true⟩ ("c.insert(" ++ blockOfTwo ++ ")")
        backendWithId).1 =
      .ok (some ⟨2, ["5f1d7f0e2c8b9a0012345670", "5f1d7f0e2c8b9a0012345678"]⟩) ∧
    ∃ results,
      (Controller.query ⟨some ⟨some "d", false⟩, .fresh, true⟩ "c.find()"
        (.fresh [replyOfTwo])).1 = .ok (.arr results) ∧
      results.map (·.property? "id") =
        [some (.str "5f1d7f0e2c8b9a0012345670"), some (.str "5f1d7f0e2c8b9a0012345678")] := by
  have htokens : Json.tokens ('[' :: (blockOfTwo.toList ++ [']'])) = some [.openArray, .openArray,
      .openObject, .leaf (.str "a"), .colon, .leaf (.str "x"), .closeObject, .comma, .openObject,
      .leaf (.str "_id"), .colon, .openObject, .leaf (.str "$oid"), .colon,
      .leaf (.str "5F1D7F0E2C8B9A0012345678"), .closeObject, .comma, .leaf (.str "id"), .colon,
      .leaf (.str "y"), .closeObject, .closeArray, .closeArray] := by rfl
  have hparse := Query.parse_of_block .insert ("c.insert(" ++ blockOfTwo ++ ")") blockOfTwo
    (by decide) htokens rfl
  have hrequest : Resolver.request ⟨some "d", false⟩ ("c.insert(" ++ blockOfTwo ++ ")") =
      .ok (.send (.insert ⟨"d", "c"⟩ [[("a", .string "x")],
        [("_id", .objectId (.hex "5f1d7f0e2c8b9a0012345678")), ("id", .string "y")]])) :=
    (Resolver.request_of_parse hparse).trans rfl
  have hupdate : (Controller.update ⟨some ⟨some "d", false⟩, .fresh, true⟩
      ("c.insert(" ++ blockOfTwo ++ ")") backendWithId).1 =
        .ok (some ⟨2, ["5f1d7f0e2c8b9a0012345670", "5f1d7f0e2c8b9a0012345678"]⟩) := by
    simp only [update, resolve, Resolver.resolve_of_send hrequest]
    rfl
  refine ⟨hupdate, ?_⟩
  -- the first document has no id, the second one in its wrapper
  have hids : ∀ v ∈ [Json.obj [("a", .str "x")],
      .obj [("_id", .obj [("$oid", .str "5F1D7F0E2C8B9A0012345678")]), ("id", .str "y")]],
      v.IdAbsentOrWrapped := by
    simp only [List.forall_mem_cons, List.not_mem_nil, false_implies, implies_true, and_true]
    exact ⟨⟨_, rfl, .inl rfl⟩, ⟨_, rfl, .inr ⟨_, rfl⟩⟩⟩
  obtain ⟨ns, documents, hcommands, hread⟩ := inserted_keys_read_back _ _ _ _ _ _ _ rfl rfl hparse
    ⟨rfl, .inl rfl⟩ (List.cons_ne_nil _ _) hids hupdate
  rw [Resolver.commands_of_send hrequest] at hcommands
  cases hcommands
  obtain ⟨results, hquery, -, hproperties, -⟩ := hread "c.find()" (.fresh [replyOfTwo]) _ _ _ _ _ _
    (find_mem_commands _) rfl (Reply.delivers_of_convertAll rfl)
  exact ⟨results, hquery, hproperties⟩

end Controller

end ShellQuery
