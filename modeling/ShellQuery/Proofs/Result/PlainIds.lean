import ShellQuery.Bson.Convert
import ShellQuery.Proofs.Result.Normalize
import ShellQuery.Proofs.Result.Places

/-!
# Ids of results in plain form

The plain form of a stored value is its relaxed form with object ids replaced.  A document with an
object id under `_id` gets the text of the id under `id` instead; all other documents keep their
names.  So what stands at a place of the plain form is the plain form of what stands there in the
document, and `HidesIds` says what that means for ids.

Two things are left as they are.  A scope whose only member is `$oid`, and no text, looks like a
wrapper and is none.  A member `id` beside an object id is replaced by the text of the id, with all
that it holds.
-/

namespace ShellQuery

namespace Bson

/-- The relaxed form of a value with object ids replaced. -/
def plain (b : Bson) : Json :=
  b.relaxed.normalize .idOnly

/-- The members of a document in plain form, under their own names. -/
def plainFields (fields : Document) : Entries Json :=
  fields.map fun e => (e.1, e.2.plain)

variable {b : Bson} {fields : Document} {name : String} {place : Place}

/-! ## Members -/

theorem normalizeFields_relaxedFields (fields : Document) :
    Json.normalizeFields .idOnly (relaxedFields fields) = plainFields fields := by
  rw [Json.normalizeFields_eq_map, relaxedFields_eq_map, List.map_map, plainFields]
  rfl

theorem keys_plainFields (fields : Document) :
    Entries.keys (plainFields fields) = Entries.keys fields := by
  simp [Entries.keys, plainFields]

theorem mem_plainFields_iff {v : Json} :
    (name, v) ∈ plainFields fields ↔ ∃ b, (name, b) ∈ fields ∧ b.plain = v := by
  simp [plainFields]

/-! ## Values that hold no other values -/

/-- Only a text has the form of a text. -/
theorem relaxed_eq_str_iff {s : String} : b.relaxed = .str s ↔ b = .string s := by
  cases b with
  | string t => simp [relaxed]
  | double x => cases x <;> simp [relaxed, plainFloatJson, wrap]
  | dateTime millis =>
    simp only [relaxed, instantJson, reduceCtorEq, iff_false]
    split <;> simp [wrapText, wrap, millisJson]
  | _ =>
    simp [relaxed, wrap, wrapText, objectIdJson, binaryJson, regexJson, timestampJson, pointerJson]

/-- No wrapper of another type has the names that matter for object ids. -/
theorem IsLeaf.unmarked_plain (h : b.IsLeaf) : b.plain.Unmarked := by
  have hplain : b.relaxed.Unmarked → b.plain.Unmarked := by
    intro hrelaxed
    rw [plain, hrelaxed.normalize]
    exact hrelaxed
  cases b with
  | document | array | codeWithScope => exact h.elim
  | objectId id => exact .str _
  | dbPointer collection id =>
    -- the id in a pointer is replaced as well
    have hpointer : (dbPointer collection id).plain =
        wrap "$dbPointer" (.obj [("$ref", .str collection), ("$id", .str id.text)]) := rfl
    rw [hpointer]
    simp [wrap, Json.unmarked_obj_iff, Entries.keys, Json.Unmarked.str]
  | double x =>
    apply hplain
    cases x <;>
      simp [relaxed, plainFloatJson, wrap, Json.unmarked_obj_iff, Entries.keys, Json.Unmarked.float,
        Json.Unmarked.str]
  | dateTime millis =>
    apply hplain
    simp only [relaxed, instantJson, millisJson]
    split <;> simp [wrapText, wrap, Json.unmarked_obj_iff, Entries.keys, Json.Unmarked.str]
  | string s => exact hplain (.str s)
  | boolean value => exact hplain (.bool value)
  | null => exact hplain .null
  | int32 i | int64 i => exact hplain (.int i)
  | regex | code | timestamp | binary | symbol | decimal | undefined | maxKey | minKey =>
    apply hplain
    simp [relaxed, regexJson, timestampJson, binaryJson, wrapText, wrap, Json.unmarked_obj_iff,
      Entries.keys, Json.Unmarked.str, Json.Unmarked.int, Json.Unmarked.bool]

/-! ## Values that hold other values -/

theorem plain_array (items : List Bson) : (array items).plain = .arr (items.map plain) := by
  rw [plain, relaxed_array, Json.normalize, Json.normalizeItems_eq_map, List.map_map]
  rfl

theorem plain_codeWithScope (text : String) (scope : Document) :
    (codeWithScope text scope).plain =
      .obj [("$code", .str text), ("$scope", (document scope).plain)] := by
  rw [plain, relaxed, Json.normalize_obj (by simp [Entries.keys]) (by simp [Entries.keys])]
  rfl

/-- A readable value has the form of a wrapped object id only when it is one. -/
theorem Readable.relaxed_eq_wrapper_iff (h : b.Readable) {s : String} :
    b.relaxed = .obj [("$oid", .str s)] ↔ ∃ id, b = .objectId id ∧ id.text = s := by
  cases b with
  | objectId id => simp [relaxed, objectIdJson, wrap]
  | document fields =>
    -- the member of such an object would have the name of the wrapper
    simp only [relaxed, Json.obj.injEq, reduceCtorEq, false_and, exists_false, iff_false]
    intro hrelaxed
    have hkeys := keys_relaxedFields fields
    rw [hrelaxed] at hkeys
    exact h.not_mem_keys (hkeys ▸ List.mem_cons_self)
  | double x => cases x <;> simp [relaxed, plainFloatJson, wrap]
  | dateTime millis =>
    simp only [relaxed, instantJson, reduceCtorEq, false_and, exists_false, iff_false]
    split <;> simp [wrapText, wrap, millisJson]
  | _ => simp [relaxed, wrap, wrapText, binaryJson, regexJson, timestampJson, pointerJson]

/-! ## Documents -/

/-- A document with an object id under `_id` has its text under `id`. -/
theorem plain_of_id {id : ObjectId} (hid : Entries.find? fields "_id" = some (.objectId id)) :
    (document fields).plain =
      .obj (Entries.put (Entries.erase (plainFields fields) "_id") "id" (.str id.text)) := by
  have hunwrap : Json.unwrapEntries? .idOnly (relaxedFields fields) = none := by
    rw [Option.eq_none_iff_forall_ne_some]
    intro v hv
    obtain ⟨s, hs, -⟩ := Json.unwrapEntries?_eq_some_iff.mp hv
    -- the wrapper of an object id has no other member
    have hfind := find?_relaxedFields fields "_id"
    rw [hs, hid] at hfind
    cases hfind
  have hprimary : Json.primaryId? .idOnly (relaxedFields fields) = some (.str id.text) := by
    rw [Json.primaryId?, find?_relaxedFields, hid]
    rfl
  rw [plain, relaxed, Json.normalize_obj_of_unwrapped hunwrap, hprimary,
    normalizeFields_relaxedFields, Json.renameId]

/-- Any other document keeps its names, unless it is the scope that looks like a wrapper. -/
theorem ReadableMembers.plain_of_no_id (h : ReadableMembers fields)
    (hid : ∀ id, Entries.find? fields "_id" ≠ some (.objectId id)) :
    (∃ s, fields = [("$oid", .string s)]) ∨
      (document fields).plain = .obj (plainFields fields) := by
  cases hunwrap : Json.unwrapEntries? .idOnly (relaxedFields fields) with
  | some v =>
    -- the relaxed form of the one member is a text, so the member is
    obtain ⟨s, hs, -⟩ := Json.unwrapEntries?_eq_some_iff.mp hunwrap
    rw [relaxedFields_eq_map, List.map_eq_singleton_iff] at hs
    obtain ⟨⟨name, b⟩, rfl, hb⟩ := hs
    obtain ⟨rfl, hb⟩ := Prod.mk.inj hb
    obtain rfl := relaxed_eq_str_iff.mp hb
    exact .inl ⟨s, rfl⟩
  | none =>
    refine .inr ?_
    -- what is wrapped under `_id` would be an object id, and there is none
    have hprimary : Json.primaryId? .idOnly (relaxedFields fields) = none := by
      rw [Option.eq_none_iff_forall_ne_some]
      intro v hv
      obtain ⟨w, hw, hwrapped⟩ := Option.bind_eq_some_iff.mp hv
      rw [find?_relaxedFields] at hw
      obtain ⟨b, hb, rfl⟩ := Option.map_eq_some_iff.mp hw
      obtain ⟨s, hs, -⟩ := Json.wrappedId?_eq_some_iff.mp hwrapped
      have hreadable := h.values _ (Entries.mem_of_find? hb)
      obtain ⟨id, rfl, -⟩ := hreadable.relaxed_eq_wrapper_iff.mp hs
      exact hid id hb
    rw [plain, relaxed, Json.normalize_obj_of_unwrapped hunwrap, hprimary,
      normalizeFields_relaxedFields, Json.renameId]

/-- A property of the plain form is a text or the plain form of a member. -/
theorem ReadableMembers.member_of_plain (h : ReadableMembers fields) {entries : Entries Json}
    (hplain : (document fields).plain = .obj entries) {v : Json} (hmem : (name, v) ∈ entries) :
    (∃ s, v = .str s) ∨ ∃ b, (name, b) ∈ fields ∧ b.plain = v := by
  by_cases hid : ∃ id, Entries.find? fields "_id" = some (.objectId id)
  · obtain ⟨id, hid⟩ := hid
    rw [plain_of_id hid] at hplain
    cases hplain
    -- the text of the id is the one property that is new
    obtain heq | herase := Entries.mem_put hmem
    · cases heq
      exact .inl ⟨_, rfl⟩
    · exact .inr (mem_plainFields_iff.mp (Entries.mem_of_mem_erase herase))
  · obtain ⟨s, rfl⟩ | hfields := h.plain_of_no_id (not_exists.mp hid)
    · cases hplain
    · rw [hfields] at hplain
      cases hplain
      exact .inr (mem_plainFields_iff.mp hmem)

/-- The plain form of a document is a text or an object. -/
theorem plain_document_ne_arr (fields : Document) (items : List Json) :
    (document fields).plain ≠ .arr items := by
  intro h
  rw [plain, relaxed, Json.normalize] at h
  split at h
  · next hunwrap =>
    obtain ⟨s, -, rfl⟩ := Json.unwrapEntries?_eq_some_iff.mp hunwrap
    cases h
  · cases h

/-! ## Steps into the plain form -/

/-- A property of the plain form of a value stands for a member of the value, or it is a text, or it
    is part of a wrapper. -/
theorem Part.field_of_plain (hb : b.Part) {entries : Entries Json} (hplain : b.plain = .obj entries)
    {v : Json} (hmem : (name, v) ∈ entries) :
    (∃ value, b.At [.field name] value ∧ value.plain = v) ∨ (∃ s, v = .str s) ∨
      (Json.obj entries).Unmarked := by
  obtain hleaf | ⟨items, rfl, -⟩ | ⟨fields, rfl, hfields⟩ | ⟨text, scope, rfl, -⟩ := hb.shape
  · exact .inr (.inr (hplain ▸ hleaf.unmarked_plain))
  · rw [plain_array] at hplain
    cases hplain
  · obtain hstr | ⟨value, hvalue, hv⟩ := hfields.member_of_plain hplain hmem
    · exact .inr (.inl hstr)
    · exact .inl ⟨value, .field hvalue (.here value), hv⟩
  · rw [plain_codeWithScope] at hplain
    cases hplain
    obtain heq | hscope := List.mem_cons.mp hmem
    · cases heq
      exact .inr (.inl ⟨_, rfl⟩)
    · cases List.mem_singleton.mp hscope
      exact .inl ⟨.document scope, .scope (.here _), rfl⟩

/-- An item of the plain form of a value stands for an item of the value, or it is part of a
    wrapper. -/
theorem Part.item_of_plain (hb : b.Part) {items : List Json} (hplain : b.plain = .arr items)
    {index : Nat} {v : Json} (hitem : items[index]? = some v) :
    (∃ value, b.At [.item index] value ∧ value.plain = v) ∨ (Json.arr items).Unmarked := by
  obtain hleaf | ⟨values, rfl, -⟩ | ⟨fields, rfl, -⟩ | ⟨text, scope, rfl, -⟩ := hb.shape
  · exact .inr (hplain ▸ hleaf.unmarked_plain)
  · rw [plain_array] at hplain
    cases hplain
    rw [List.getElem?_map] at hitem
    obtain ⟨value, hvalue, hv⟩ := Option.map_eq_some_iff.mp hitem
    exact .inl ⟨value, .item hvalue (.here value), hv⟩
  · exact absurd hplain (plain_document_ne_arr fields items)
  · rw [plain_codeWithScope] at hplain
    cases hplain

/-! ## Places in the plain form -/

/-- An object at a place of the plain form is the plain form of the document there, or part of a
    wrapper without the names of ids. -/
theorem Part.document_of_at_plain {entries : Entries Json} (hb : b.Part)
    (h : Json.At b.plain place (.obj entries)) :
    (∃ fields, b.At place (.document fields) ∧ (document fields).plain = .obj entries) ∨
      "$oid" ∉ Entries.keys entries ∧ "_id" ∉ Entries.keys entries := by
  generalize hv : b.plain = v at h
  generalize hw : Json.obj entries = w at h
  -- along the path in the result, with the document in step until a wrapper is entered
  induction h generalizing b with
  | here v =>
    subst hw
    obtain hleaf | ⟨items, rfl, -⟩ | ⟨fields, rfl, -⟩ | ⟨text, scope, rfl, -⟩ := hb.shape
    · exact .inr ((hv ▸ hleaf.unmarked_plain).names_of_at (.here _))
    · rw [plain_array] at hv
      cases hv
    · exact .inl ⟨fields, .here _, hv⟩
    · rw [plain_codeWithScope] at hv
      cases hv
      exact .inr (by simp [Entries.keys])
  | field hmem hat ih =>
    subst hw
    obtain ⟨value, hstep, rfl⟩ | ⟨s, rfl⟩ | hunmarked := hb.field_of_plain hv hmem
    · obtain ⟨fields, hfields, hplain⟩ | hnames := ih (hstep.part hb) rfl rfl
      · exact .inl ⟨fields, hstep.append hfields, hplain⟩
      · exact .inr hnames
    · -- there is nothing inside a text
      cases hat
    · exact .inr (hunmarked.names_of_at (.field hmem hat))
  | item hitem hat ih =>
    subst hw
    obtain ⟨value, hstep, rfl⟩ | hunmarked := hb.item_of_plain hv hitem
    · obtain ⟨fields, hfields, hplain⟩ | hnames := ih (hstep.part hb) rfl rfl
      · exact .inl ⟨fields, hstep.append hfields, hplain⟩
      · exact .inr hnames
    · exact .inr (hunmarked.names_of_at (.item hitem hat))

end Bson

end ShellQuery
