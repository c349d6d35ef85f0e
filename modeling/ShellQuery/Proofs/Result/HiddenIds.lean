import ShellQuery.Proofs.Result.PlainIds

/-!
# Results that show no object ids

`HidesIds` says what callers see of the object ids of a document: no wrapper at any place, no `_id`
where a document has an object id, and the text of the id under `id` instead.

Two places are exempt.  A scope whose only member is `$oid`, and no text, looks like a wrapper and
is left as it is.  Behind a member `id` that stands beside an object id there is nothing, as the
text of the object id takes the place of that member.

The main statement is `Document.IsConverted.hidesIds`: the plain form of a document that was
converted from JSON hides its ids.
-/

namespace ShellQuery

namespace Bson

/-- The place lies under a member `id` that stands beside an object id. -/
def Shadowed (b : Bson) (place : Place) : Prop :=
  ∃ outer rest fields id, place = outer ++ .field "id" :: rest ∧ b.At outer (.document fields) ∧
    ("_id", .objectId id) ∈ fields

variable {b : Bson} {fields : Document} {name : String} {place : Place} {id : ObjectId}

theorem Shadowed.of_step {step : Step} {value : Bson} (hstep : b.At [step] value)
    (h : value.Shadowed place) : b.Shadowed (step :: place) := by
  obtain ⟨outer, rest, fields, id, rfl, hat, hid⟩ := h
  exact ⟨step :: outer, rest, fields, id, rfl, hstep.append hat, hid⟩

/-! ## Documents in plain form -/

theorem ReadableMembers.find?_id (h : ReadableMembers fields)
    (hid : ("_id", .objectId id) ∈ fields) : Entries.find? fields "_id" = some (.objectId id) :=
  (Entries.find?_eq_some_iff h.nodup).mpr hid

/-- A member that is no id and no text stays where it is, unless it gives way to an object id. -/
theorem ReadableMembers.member_in_plain (h : ReadableMembers fields) {value : Bson}
    (hmem : (name, value) ∈ fields) (hvalue : ∀ id, value ≠ .objectId id)
    (htext : ∀ s, value ≠ .string s)
    (hplace : name = "id" → ∀ id, ("_id", .objectId id) ∉ fields) :
    ∃ entries, (document fields).plain = .obj entries ∧ (name, value.plain) ∈ entries := by
  have hmem' : (name, value.plain) ∈ plainFields fields :=
    mem_plainFields_iff.mpr ⟨value, hmem, rfl⟩
  by_cases hid : ∃ id, Entries.find? fields "_id" = some (.objectId id)
  · -- only `_id` is dropped and only `id` is written
    obtain ⟨id, hid⟩ := hid
    have hother : name ≠ "id" := fun hname => hplace hname id (Entries.mem_of_find? hid)
    have hkey : name ≠ "_id" := by
      rintro rfl
      rw [(Entries.find?_eq_some_iff h.nodup).mpr hmem] at hid
      exact hvalue id (Option.some.inj hid)
    exact ⟨_, plain_of_id hid, Entries.mem_put_of_ne hother (Entries.mem_erase_of_ne hkey hmem')⟩
  · obtain ⟨s, rfl⟩ | hplain := h.plain_of_no_id (not_exists.mp hid)
    · -- the member of a wrapper is a text
      cases List.mem_singleton.mp hmem
      exact absurd rfl (htext s)
    · exact ⟨_, hplain, hmem'⟩

/-- A document with an object id shows its text under `id`, and nothing under `_id`. -/
theorem ReadableMembers.plain_hides_id (h : ReadableMembers fields)
    (hid : ("_id", .objectId id) ∈ fields) :
    ∃ entries, (document fields).plain = .obj entries ∧
      Entries.find? entries "id" = some (.str id.text) ∧ "_id" ∉ Entries.keys entries := by
  refine ⟨_, plain_of_id (h.find?_id hid), Entries.find?_put_self _ _ _, ?_⟩
  intro hname
  have hnodup : (Entries.keys (plainFields fields)).Nodup := by
    rw [keys_plainFields]
    exact h.nodup
  -- what is written is called `id`, and what was there before is dropped
  obtain ⟨v, hv⟩ := Entries.exists_mem_of_mem_keys hname
  obtain heq | herase := Entries.mem_put hv
  · exact absurd (Prod.mk.inj heq).1 (by decide)
  · exact Entries.not_mem_keys_erase hnodup (Entries.mem_keys_of_mem herase)

/-- A document that is not shadowed stands in plain form at its place. -/
theorem Part.at_plain (hb : b.Part) (h : b.At place (.document fields))
    (hshadow : ¬ b.Shadowed place) : b.plain.At place (document fields).plain := by
  generalize hw : Bson.document fields = w at h
  induction h with
  | here => exact .here _
  | @field members name place value w hmem hat ih =>
    have hvalue := hb.members.values _ hmem
    have hrest := ih (.value hvalue) (fun h => hshadow (.of_step (.field hmem (.here _)) h)) hw
    -- what stands inside the member is a document, so the member is no id and no text
    obtain ⟨entries, hplain, hmem'⟩ := hb.members.member_in_plain hmem
      (by rintro id rfl; subst hw; cases hat) (by rintro s rfl; subst hw; cases hat)
      (by rintro rfl id hid; exact hshadow ⟨[], place, members, id, rfl, .here _, hid⟩)
    rw [hplain]
    exact .field hmem' hrest
  | item hitem _ ih =>
    have hvalue := (hb.readable nofun).items _ (List.mem_of_getElem? hitem)
    have hrest := ih (.value hvalue) (fun h => hshadow (.of_step (.item hitem (.here _)) h)) hw
    rw [plain_array]
    exact .item (by rw [List.getElem?_map, hitem, Option.map_some]) hrest
  | scope _ ih =>
    have hrest := ih (.scope (hb.readable nofun).scope)
      (fun h => hshadow (.of_step (.scope (.here _)) h)) hw
    rw [plain_codeWithScope]
    exact .field (List.mem_cons_of_mem _ List.mem_cons_self) hrest

/-- What looks like a wrapper in plain form is a scope that looks like one. -/
theorem Readable.scope_of_wrapper (hb : b.Readable) {v : Json}
    (h : b.plain.At place (.obj [("$oid", v)])) :
    ∃ outer text value, place = outer ++ [.field "$scope"] ∧
      b.At outer (.codeWithScope text [("$oid", value)]) ∧ ∀ s, value ≠ .string s := by
  obtain ⟨fields, hat, hplain⟩ | ⟨hname, -⟩ := (Part.value hb).document_of_at_plain h
  · have hfields := (hat.part (.value hb)).members
    -- without an object id the names are those of the document
    have hid : ∀ id, Entries.find? fields "_id" ≠ some (.objectId id) := by
      intro id hid
      obtain ⟨entries, hentries, hfind, -⟩ := hfields.plain_hides_id (Entries.mem_of_find? hid)
      rw [hplain] at hentries
      cases hentries
      cases hfind
    obtain ⟨s, rfl⟩ | hnames := hfields.plain_of_no_id hid
    · cases hplain
    · rw [hnames] at hplain
      obtain ⟨⟨name, value⟩, rfl, hvalue⟩ := List.map_eq_singleton_iff.mp (Json.obj.inj hplain)
      obtain ⟨rfl, -⟩ := Prod.mk.inj hvalue
      obtain ⟨-, hnot⟩ | ⟨outer, text, hplace, hcode⟩ :=
        hat.scope_of_mem_keys (.value hb) List.mem_cons_self
      · exact absurd hb hnot
      · -- with a text the scope would have been replaced
        refine ⟨outer, text, value, hplace, hcode, ?_⟩
        rintro s rfl
        cases hnames
  · exact absurd List.mem_cons_self hname

end Bson

/-! ## Main result -/

/-- The result shows the object ids of the document as texts only, and under `id` instead of
    `_id`. -/
structure HidesIds (d : Document) (result : Json) : Prop where
  no_wrapper : ∀ place v, result.At place (.obj [("$oid", v)]) →
    ∃ outer text value, place = outer ++ [.field "$scope"] ∧
      (Bson.document d).At outer (.codeWithScope text [("$oid", value)]) ∧ ∀ s, value ≠ .string s
  no_id_name : ∀ place fields id entries, (Bson.document d).At place (.document fields) →
    ("_id", .objectId id) ∈ fields → result.At place (.obj entries) → "_id" ∉ Entries.keys entries
  id_text : ∀ place fields id, (Bson.document d).At place (.document fields) →
    ("_id", .objectId id) ∈ fields → ¬ (Bson.document d).Shadowed place →
    id.IsLowerHex ∧ ∃ entries, result.At place (.obj entries) ∧
      Entries.find? entries "id" = some (.str id.text)

/-- The plain form of a converted document hides its object ids. -/
theorem Document.IsConverted.hidesIds {d : Document} (h : d.IsConverted) :
    HidesIds d (d.toJson.normalize .idOnly) := by
  have hb := h.readable
  have hpart : (Bson.document d).Part := .value hb
  refine ⟨fun place v hat => hb.scope_of_wrapper hat, ?_, ?_⟩
  · intro place fields id entries hat hid hresult
    -- an object of the result comes from the document at its place, which is this one
    obtain ⟨fields', hat', hplain⟩ | ⟨-, hname⟩ := hpart.document_of_at_plain hresult
    · cases hat.unique hpart hat'
      obtain ⟨entries', hentries, -, hname⟩ := (hat.part hpart).members.plain_hides_id hid
      rw [hplain] at hentries
      cases hentries
      exact hname
    · exact hname
  · intro place fields id hat hid hshadow
    have hfields := (hat.part hpart).members
    obtain ⟨entries, hplain, hfind, -⟩ := hfields.plain_hides_id hid
    have hresult := hpart.at_plain hat hshadow
    rw [hplain] at hresult
    exact ⟨(hfields.values _ hid).objectId, entries, hresult, hfind⟩

end ShellQuery
