import ShellQuery.Controller.Basic
import ShellQuery.Proofs.Backend.Results
import ShellQuery.Proofs.Result.HiddenIds

/-!
# Queries that read

A controller that replaces object ids gives for a `find` the plain forms of all documents that the
backend delivers, in their order, and they hide the ids.  Two documents at the end show what a scope
that looks like a wrapper and a member `id` beside an object id make of this.
-/

namespace ShellQuery.Controller

variable {c : Controller} {r : Resolver} {text : String} {b : Backend} {ns : Namespace}
  {filter : Document} {projection : Option Document} {modifiers : Modifiers} {reply : Json}
  {rest : List Json} {documents : List Document}

/-- A `find` gives the plain forms of the documents that are delivered. -/
theorem query_find (hresolver : c.resolver = some r) (hnormalize : c.normalizeIds = true)
    (hfind : .find ns filter projection modifiers ∈ r.commands text b)
    (hreplies : b.replies = reply :: rest) (hreply : Reply.Delivers reply documents) :
    (c.query text b).1 = .ok (.arr (documents.map fun d => d.toJson.normalize .idOnly)) := by
  have hresolve : c.resolve text b = r.resolve text b := by rw [resolve, hresolver]
  have hquery : (c.query text b).1 = (c.resolve text b).1.map c.shape := rfl
  rw [hquery, hresolve, Resolver.resolve_find hfind hreplies hreply, Except.map, shape,
    if_pos hnormalize, Json.normalize, Json.normalizeItems_eq_map, List.map_map]
  rfl

/-- The query that asks for all documents. -/
theorem find_mem_commands (b : Backend) :
    .find ⟨"d", "c"⟩ [] none ⟨none, none⟩ ∈ Resolver.commands ⟨some "d", false⟩ "c.find()" b := by
  have hparse : Query.parse "c.find()" = .ok (.call ⟨none, "c", .find, [], ""⟩) := by rfl
  rw [Resolver.mem_commands_iff_of_not_insert (by simp [Command.operation?]),
    Resolver.request_of_parse hparse]
  rfl

/-- For a `find` the controller gives all delivered documents in order, and if they come from JSON
    no object id of them is seen as more than a text. -/
theorem query_hides_ids (c : Controller) (r : Resolver) (text : String) (b : Backend)
    (ns : Namespace) (filter : Document) (projection : Option Document) (modifiers : Modifiers)
    (reply : Json) (rest : List Json) (documents : List Document)
    (hresolver : c.resolver = some r) (hnormalize : c.normalizeIds = true)
    (hfind : .find ns filter projection modifiers ∈ r.commands text b)
    (hreplies : b.replies = reply :: rest) (hreply : Reply.Delivers reply documents)
    (hdocuments : ∀ d ∈ documents, d.IsConverted) :
    (c.query text b).1 = .ok (.arr (documents.map fun d => d.toJson.normalize .idOnly)) ∧
      ∀ d ∈ documents, HidesIds d (d.toJson.normalize .idOnly) :=
  ⟨query_find hresolver hnormalize hfind hreplies hreply,
    fun d hd => (hdocuments d hd).hidesIds⟩

/-- A document with an object id and a member `id`. -/
theorem query_hides_id_beside_text :
    (Controller.query ⟨some ⟨some "d", false⟩, .fresh, true⟩ "c.find()" (.fresh
        [.obj [("docs", .arr [.obj [("_id", .obj [("$oid", .str "5F1D7F0E2C8B9A0012345678")]),
          ("id", .str "a")]])]])).1 =
      .ok (.arr [.obj [("id", .str "5f1d7f0e2c8b9a0012345678")]]) ∧
    HidesIds [("_id", .objectId (.hex "5f1d7f0e2c8b9a0012345678")), ("id", .string "a")]
      (.obj [("id", .str "5f1d7f0e2c8b9a0012345678")]) := by
  have hconvert : Document.convert (.obj [("_id",
      .obj [("$oid", .str "5F1D7F0E2C8B9A0012345678")]), ("id", .str "a")]) =
      .ok [("_id", .objectId (.hex "5f1d7f0e2c8b9a0012345678")), ("id", .string "a")] := by rfl
  have hwellFormed : (Json.obj [("_id", .obj [("$oid", .str "5F1D7F0E2C8B9A0012345678")]),
      ("id", .str "a")]).WellFormed := by
    simp [Json.wellFormed_obj_iff, Entries.keys, Json.WellFormed.str]
  have hquery := query_hides_ids ⟨some ⟨some "d", false⟩, .fresh, true⟩ ⟨some "d", false⟩ "c.find()"
    (.fresh [_]) _ _ _ _ _ _ _ rfl rfl (find_mem_commands _) rfl
    (Reply.delivers_of_convertAll (Document.convertAll_singleton hconvert))
    (List.forall_mem_singleton.mpr ⟨_, hwellFormed, hconvert⟩)
  exact ⟨hquery.1, hquery.2 _ List.mem_cons_self⟩

private theorem query_one {d : Document} (hconvert : Document.convert d.toJson = .ok d) :
    (Controller.query ⟨some ⟨some "d", false⟩, .fresh, true⟩ "c.find()"
      (.fresh [.obj [("docs", .arr [d.toJson])]])).1 = .ok (.arr [d.toJson.normalize .idOnly]) :=
  query_find (c := ⟨some ⟨some "d", false⟩, .fresh, true⟩) rfl rfl (find_mem_commands _) rfl
    (Reply.delivers_of_convertAll (Document.convertAll_singleton hconvert))

/-- A document with program text whose scope looks like the wrapper of an object id. -/
def scopeLikeWrapper : Document :=
  [("f", .codeWithScope "x" [("$oid", .int32 5)])]

/-- A document with an object id whose member `id` is a document with an object id. -/
def idBesideId : Document :=
  [("_id", .objectId (.hex "5f1d7f0e2c8b9a0012345678")),
    ("id", .document [("_id", .objectId (.hex "5f1d7f0e2c8b9a0012345679"))])]

/-- A scope that looks like the wrapper of an object id, but holds a number, is left as it is, and
    so an object with the one property `$oid` is seen.  A document under `id` is lost when it stands
    beside an object id, and with it the object id of that document. -/
theorem query_shows_wrapper_in_scope :
    scopeLikeWrapper.IsConverted ∧
    (Controller.query ⟨some ⟨some "d", false⟩, .fresh, true⟩ "c.find()"
        (.fresh [.obj [("docs", .arr [scopeLikeWrapper.toJson])]])).1 =
      .ok (.arr [.obj [("f", .obj [("$code", .str "x"), ("$scope", .obj [("$oid", .int 5)])])]]) ∧
    Json.At (.obj [("f", .obj [("$code", .str "x"), ("$scope", .obj [("$oid", .int 5)])])])
      [.field "f", .field "$scope"] (.obj [("$oid", .int 5)]) ∧
    idBesideId.IsConverted ∧
    (Controller.query ⟨some ⟨some "d", false⟩, .fresh, true⟩ "c.find()"
        (.fresh [.obj [("docs", .arr [idBesideId.toJson])]])).1 =
      .ok (.arr [.obj [("id", .str "5f1d7f0e2c8b9a0012345678")]]) ∧
    (Bson.document idBesideId).At [.field "id"]
      (.document [("_id", .objectId (.hex "5f1d7f0e2c8b9a0012345679"))]) ∧
    ∀ entries, ¬ Json.At (.obj [("id", .str "5f1d7f0e2c8b9a0012345678")]) [.field "id"]
      (.obj entries) := by
  have hscope : scopeLikeWrapper.toJson.WellFormed := by
    simp [scopeLikeWrapper, Document.toJson, Bson.relaxed, Bson.relaxedFields,
      Json.wellFormed_obj_iff, Entries.keys, Json.WellFormed.str, Json.WellFormed.int]
  have hscope' : Document.convert scopeLikeWrapper.toJson = .ok scopeLikeWrapper := by rfl
  have hid : idBesideId.toJson.WellFormed := by
    simp [idBesideId, Document.toJson, Bson.relaxed, Bson.relaxedFields, Bson.objectIdJson,
      Bson.wrap, Json.wellFormed_obj_iff, Entries.keys, Json.WellFormed.str]
  have hid' : Document.convert idBesideId.toJson = .ok idBesideId := by rfl
  refine ⟨⟨_, hscope, hscope'⟩, query_one hscope', ?_, ⟨_, hid, hid'⟩, query_one hid', ?_, ?_⟩
  · exact .field List.mem_cons_self (.field (List.mem_cons_of_mem _ List.mem_cons_self) (.here _))
  · exact .field (List.mem_cons_of_mem _ List.mem_cons_self) (.here _)
  · -- the only property is a text
    intro entries hat
    cases hat with
    | field hmem hat =>
      cases List.mem_singleton.mp hmem
      cases hat

end ShellQuery.Controller
