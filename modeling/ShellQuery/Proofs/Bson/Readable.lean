import ShellQuery.Proofs.Bson.Documents
import ShellQuery.Proofs.Json.WellFormed

/-!
# Values that are read

Reading gives documents in which no name occurs twice and ids of lower-case digits.  A document has
no member `$oid`, as an object with that name is a wrapper.  The scope of program text is the one
exception: its members are read as they stand, whatever their names.

The main statement is `readable_of_ofJson?`.
-/

namespace ShellQuery

/-! ## Ids -/

/-- The text of the id is 24 lower-case hexadecimal digits. -/
def ObjectId.IsLowerHex (id : ObjectId) : Prop :=
  id.text.toList.length = 24 ∧ ∀ c ∈ id.text.toList, c ∈ "0123456789abcdef".toList

/-- What holds of the few characters of a range, as a check of each of them tells. -/
private theorem toLower_of_range {c first last : Char} (hfirst : first ≤ c) (hlast : c ≤ last)
    (hcheck : ((List.range' first.toNat (last.toNat + 1 - first.toNat)).map Char.ofNat).all
      (fun d => "0123456789abcdef".toList.contains d.toLower) = true) :
    c.toLower ∈ "0123456789abcdef".toList := by
  have hfirst : first.toNat ≤ c.toNat := hfirst
  have hlast : c.toNat ≤ last.toNat := hlast
  have hmem : c ∈ (List.range' first.toNat (last.toNat + 1 - first.toNat)).map Char.ofNat := by
    refine List.mem_map.mpr ⟨c.toNat, ?_, Char.ofNat_toNat c⟩
    rw [List.mem_range'_1]
    omega
  exact List.contains_iff_mem.mp (List.all_eq_true.mp hcheck c hmem)

private theorem toLower_of_isHexDigit {c : Char} (h : Text.isHexDigit c = true) :
    c.toLower ∈ "0123456789abcdef".toList := by
  unfold Text.isHexDigit Text.hexValue? at h
  split at h
  · next hrange => exact toLower_of_range hrange.1 hrange.2 (by decide)
  · split at h
    · next hrange => exact toLower_of_range hrange.1 hrange.2 (by decide)
    · split at h
      · next hrange => exact toLower_of_range hrange.1 hrange.2 (by decide)
      · cases h

theorem ObjectId.isLowerHex_of_read? {digits : String} {id : ObjectId}
    (h : ObjectId.read? digits = some id) : id.IsLowerHex := by
  simp only [read?] at h
  split at h
  · next hdigits =>
    cases h
    refine ⟨by simp [text, hdigits.1], ?_⟩
    intro c hc
    simp only [text, String.toList_ofList, List.mem_map] at hc
    obtain ⟨d, hd, rfl⟩ := hc
    exact toLower_of_isHexDigit (List.all_eq_true.mp hdigits.2 d hd)
  · cases h

namespace Bson

/-! ## Readable values -/

/-- No document of the value has a name twice or a member `$oid`, but for the scopes of program
    text, and the ids in it have been read. -/
inductive Readable : Bson → Prop where
  | leaf {b : Bson} (h : b.IsLeaf) : Readable b
  | array {items : List Bson} (h : ∀ b ∈ items, Readable b) : Readable (.array items)
  | document {fields : List (String × Bson)} (hnodup : (Entries.keys fields).Nodup)
      (hname : "$oid" ∉ Entries.keys fields) (h : ∀ e ∈ fields, Readable e.2) :
      Readable (.document fields)
  | codeWithScope {text : String} {scope : List (String × Bson)}
      (hnodup : (Entries.keys scope).Nodup) (h : ∀ e ∈ scope, Readable e.2) :
      Readable (.codeWithScope text scope)

/-- The members of the document are readable and have distinct names. -/
structure ReadableMembers (fields : Document) : Prop where
  nodup : (Entries.keys fields).Nodup
  values : ∀ e ∈ fields, e.2.Readable

namespace Readable

theorem items {values : List Bson} (h : Readable (.array values)) : ∀ b ∈ values, b.Readable := by
  cases h with
  | leaf h => exact h.elim
  | array h => exact h

theorem members {fields : Document} (h : Readable (.document fields)) : ReadableMembers fields := by
  cases h with
  | leaf h => exact h.elim
  | document hnodup _ h => exact ⟨hnodup, h⟩

theorem not_mem_keys {fields : Document} (h : Readable (.document fields)) :
    "$oid" ∉ Entries.keys fields := by
  cases h with
  | leaf h => exact h.elim
  | document _ hname _ => exact hname

theorem scope {text : String} {fields : Document} (h : Readable (.codeWithScope text fields)) :
    ReadableMembers fields := by
  cases h with
  | leaf h => exact h.elim
  | codeWithScope hnodup h => exact ⟨hnodup, h⟩

theorem objectId {id : ObjectId} (h : Readable (.objectId id)) : id.IsLowerHex := by
  cases h with
  | leaf h =>
    obtain ⟨digits, hdigits⟩ := h
    exact ObjectId.isLowerHex_of_read? hdigits

end Readable

/-! ## Reading -/

/-- The members of an object are read as members of a document. -/
theorem readableMembers_of_ofFields? {entries : Entries Json} {fields : Document}
    (hnodup : (Entries.keys entries).Nodup)
    (hvalues : ∀ e ∈ entries, ∀ b, ofJson? e.2 = some b → b.Readable)
    (h : ofFields? entries = some fields) : ReadableMembers fields := by
  refine ⟨keys_of_ofFields? h ▸ hnodup, ?_⟩
  rintro ⟨name, b⟩ hmem
  obtain ⟨v, hv, hread⟩ := mem_of_ofFields? h hmem
  exact hvalues (name, v) hv b hread

/-- A scope is read from the value of a member. -/
theorem exists_mem_of_ofScope? {entries : Entries Json} {b : Bson} (h : ofScope? entries = some b) :
    ∃ e ∈ entries, ofScopeValue? e.2 = some b := by
  induction entries with
  | nil => cases h
  | cons entry rest ih =>
    obtain ⟨name, item⟩ := entry
    rw [ofScope?] at h
    split at h
    · exact ⟨(name, item), List.mem_cons_self, h⟩
    · obtain ⟨e, he, hread⟩ := ih h
      exact ⟨e, List.mem_cons_of_mem _ he, hread⟩

/-- What the value is read as is readable, as a value and as a scope. -/
def ReadsReadable (v : Json) : Prop :=
  (∀ b, ofJson? v = some b → b.Readable) ∧
    ∀ scope, ofScopeValue? v = some (.document scope) → ReadableMembers scope

/-- A scope is not looked up among the values that the members of an object are read as, so both
    readings of a value are shown at once. -/
theorem readsReadable {v : Json} (hv : v.WellFormed) : ReadsReadable v := by
  induction hv with
  | null | bool | float | str =>
    refine ⟨?_, fun scope h => by cases h⟩
    intro b h
    cases h
    exact .leaf trivial
  | int i =>
    refine ⟨?_, fun scope h => by cases h⟩
    intro b h
    -- a number of 32 bits, of 64 bits, or a float
    rw [ofJson?] at h
    split at h
    · rw [ofInt] at h
      split at h <;> cases h <;> exact .leaf trivial
    · split at h <;> cases h
      exact .leaf trivial
  | arr _ ih =>
    refine ⟨?_, fun scope h => by cases h⟩
    intro b h
    rw [ofJson?] at h
    obtain ⟨values, hvalues, rfl⟩ := Option.map_eq_some_iff.mp h
    refine .array fun value hvalue => ?_
    obtain ⟨v, hv, hread⟩ := mem_of_ofItems? hvalues hvalue
    exact (ih v hv).1 value hread
  | @obj entries hnodup _ ih =>
    have hmembers : ∀ fields, ofFields? entries = some fields → ReadableMembers fields :=
      fun _ => readableMembers_of_ofFields? hnodup fun e he => (ih e he).1
    constructor
    · intro b h
      obtain hstored | ⟨text, scope, rfl, hscope⟩ | ⟨hplain, fields, rfl, hfields⟩ :=
        ofJson?_obj_cases h
      · exact .leaf hstored.isLeaf
      · obtain ⟨e, he, hread⟩ := exists_mem_of_ofScope? hscope
        have hscope := (ih e he).2 scope hread
        exact .codeWithScope hscope.nodup hscope.values
      · -- the reader of ids would have taken an object with `$oid`
        have hfields' := hmembers fields hfields
        refine .document hfields'.nodup ?_ hfields'.values
        rw [keys_of_ofFields? hfields]
        exact hplain "$oid" List.mem_cons_self
    · intro scope h
      rw [ofScopeValue?] at h
      obtain ⟨fields, hfields, heq⟩ := Option.map_eq_some_iff.mp h
      cases heq
      exact hmembers _ hfields

/-- A value that is read from JSON with distinct names is readable. -/
theorem readable_of_ofJson? {v : Json} {b : Bson} (hv : v.WellFormed) (h : ofJson? v = some b) :
    b.Readable :=
  (readsReadable hv).1 b h

end Bson

/-- The document is the conversion of a JSON value. -/
def Document.IsConverted (d : Document) : Prop :=
  ∃ v : Json, v.WellFormed ∧ Document.convert v = .ok d

theorem Document.IsConverted.readable {d : Document} (h : d.IsConverted) :
    (Bson.document d).Readable := by
  obtain ⟨v, hv, hconvert⟩ := h
  exact Bson.readable_of_ofJson? hv (convert_eq_ok_iff.mp hconvert)

end ShellQuery
