import ShellQuery.Proofs.Entries
import ShellQuery.Proofs.Text.Digits
import ShellQuery.Result.Normalize

/-!
# Replacing wrappers

`Wraps` says without the walk over a value which objects are wrappers and what takes their place.

Only two names matter when object ids are replaced: `$oid`, under which the text of an id stands in
its wrapper, and `_id`, whose wrapped id moves.  An object without them keeps its names, and a value
without them in any of its objects is left as it is.
-/

namespace ShellQuery.Json

/-! ## Parts of a value -/

theorem normalizeItems_eq_map (mode : NormalizeMode) (items : List Json) :
    normalizeItems mode items = items.map (normalize mode) := by
  induction items with
  | nil => rfl
  | cons v rest ih => rw [normalizeItems, ih, List.map_cons]

theorem normalizeFields_eq_map (mode : NormalizeMode) (entries : Entries Json) :
    normalizeFields mode entries = entries.map fun e => (e.1, e.2.normalize mode) := by
  induction entries with
  | nil => rfl
  | cons e rest ih => rw [normalizeFields, ih, List.map_cons]

theorem keys_normalizeFields (mode : NormalizeMode) (entries : Entries Json) :
    Entries.keys (normalizeFields mode entries) = Entries.keys entries := by
  rw [normalizeFields_eq_map, Entries.keys, List.map_map]
  rfl

/-! ## Wrappers -/

/-- The value is the wrapper of an object id in the mode and holds the other value: a text in the
    narrow mode, any value in the broad one. -/
inductive WrapsId : NormalizeMode → Json → Json → Prop where
  | text (s : String) : WrapsId .idOnly (.obj [("$oid", .str s)]) (.str s)
  | any (v : Json) : WrapsId .allSpecialFields (.obj [("$oid", v)]) v

/-- The value is a wrapper in the mode, and the other value takes its place.  The broad mode has
    the wrapper of an integer of 64 bits, which stands there as a number or, blanks around it apart,
    in decimal notation. -/
inductive Wraps : NormalizeMode → Json → Json → Prop where
  | id {mode : NormalizeMode} {v held : Json} (h : WrapsId mode v held) : Wraps mode v held
  | long {i : Int} (hlow : -2 ^ 63 ≤ i) (hhigh : i < 2 ^ 63) :
      Wraps .allSpecialFields (.obj [("$numberLong", .int i)]) (.int i)
  | longText {s : String} {i : Int} (h : Text.IsInteger (Text.trim s.toList) i)
      (hlow : -2 ^ 63 ≤ i) (hhigh : i < 2 ^ 63) :
      Wraps .allSpecialFields (.obj [("$numberLong", .str s)]) (.int i)

/-- The value is a wrapper that the mode replaces. -/
def IsWrapper (mode : NormalizeMode) (v : Json) : Prop :=
  ∃ held, Wraps mode v held

theorem WrapsId.exists_inner {mode : NormalizeMode} {v held : Json} (h : WrapsId mode v held) :
    ∃ inner, v = .obj [("$oid", inner)] := by
  cases h <;> exact ⟨_, rfl⟩

theorem unwrapId?_eq_some_iff {mode : NormalizeMode} {inner held : Json} :
    unwrapId? mode inner = some held ↔ WrapsId mode (.obj [("$oid", inner)]) held := by
  constructor
  · intro h
    cases mode with
    | allSpecialFields =>
      cases h
      exact .any inner
    | idOnly =>
      cases inner with
      | str s =>
        cases h
        exact .text s
      | null | bool | int | float | arr | obj => cases h
  · intro h
    cases h with
    | text s => rfl
    | any => rfl

theorem wrappedId?_eq_some_iff_wrapsId {mode : NormalizeMode} {v held : Json} :
    wrappedId? mode v = some held ↔ WrapsId mode v held := by
  constructor
  · intro h
    unfold wrappedId? at h
    split at h
    · next tag inner =>
      split at h
      · next htag => exact htag ▸ unwrapId?_eq_some_iff.mp h
      · cases h
    · cases h
  · intro h
    cases h with
    | text s => rfl
    | any => rfl

theorem long?_eq_some_iff {v : Json} {i : Int} :
    v.long? = some i ↔ Wraps .allSpecialFields (.obj [("$numberLong", v)]) (.int i) := by
  constructor
  · intro h
    cases v with
    | str s =>
      obtain ⟨htext, hlow, hhigh⟩ := Text.readSigned64_eq_some_iff.mp h
      exact .longText htext hlow hhigh
    | int j =>
      rw [long?] at h
      split at h
      · next hfits =>
        cases h
        obtain ⟨hlow, hhigh⟩ := Text.fitsSigned64_iff.mp hfits
        exact .long hlow hhigh
      · cases h
    | null | bool | float | arr | obj => cases h
  · intro h
    cases h with
    | id h =>
      obtain ⟨inner, heq⟩ := h.exists_inner
      simp at heq
    | long hlow hhigh => rw [long?, if_pos (Text.fitsSigned64_iff.mpr ⟨hlow, hhigh⟩)]
    | longText htext hlow hhigh => exact Text.readSigned64_eq_some_iff.mpr ⟨htext, hlow, hhigh⟩

/-- What is replaced is a wrapper, and all wrappers are. -/
theorem unwrapEntries?_eq_some_iff_wraps {mode : NormalizeMode} {entries : Entries Json}
    {held : Json} : unwrapEntries? mode entries = some held ↔ Wraps mode (.obj entries) held := by
  constructor
  · intro h
    unfold unwrapEntries? at h
    split at h
    · next tag inner =>
      split at h
      · next htag => exact htag ▸ .id (unwrapId?_eq_some_iff.mp h)
      · split at h
        · next hlong =>
          obtain ⟨rfl, rfl⟩ := hlong
          obtain ⟨i, hi, rfl⟩ := Option.map_eq_some_iff.mp h
          exact long?_eq_some_iff.mp hi
        · cases h
    · cases h
  · intro h
    cases h with
    | id h =>
      cases h with
      | text s => rfl
      | any => rfl
    | long hlow hhigh =>
      have hlong := long?_eq_some_iff.mpr (.long hlow hhigh)
      simp [unwrapEntries?, hlong]
    | longText htext hlow hhigh =>
      have hlong := long?_eq_some_iff.mpr (.longText htext hlow hhigh)
      simp [unwrapEntries?, hlong]

/-! ## Objects -/

/-- In the narrow mode only an object with the one property `$oid`, a text, is replaced. -/
theorem unwrapEntries?_eq_some_iff {entries : Entries Json} {v : Json} :
    unwrapEntries? .idOnly entries = some v ↔ ∃ s, entries = [("$oid", .str s)] ∧ v = .str s := by
  rw [unwrapEntries?_eq_some_iff_wraps]
  constructor
  · rintro ⟨⟨s⟩⟩
    exact ⟨s, rfl, rfl⟩
  · rintro ⟨s, rfl, rfl⟩
    exact .id (.text s)

/-- In the narrow mode only a text in the wrapper of an object id is one. -/
theorem wrappedId?_eq_some_iff {v w : Json} :
    wrappedId? .idOnly v = some w ↔ ∃ s, v = .obj [("$oid", .str s)] ∧ w = .str s := by
  rw [wrappedId?_eq_some_iff_wrapsId]
  constructor
  · rintro ⟨s⟩
    exact ⟨s, rfl, rfl⟩
  · rintro ⟨s, rfl, rfl⟩
    exact .text s

/-- A wrapper is an object with one property. -/
theorem Wraps.exists_entry {mode : NormalizeMode} {v held : Json} (h : Wraps mode v held) :
    ∃ tag inner, v = .obj [(tag, inner)] := by
  cases h with
  | id h =>
    obtain ⟨inner, rfl⟩ := h.exists_inner
    exact ⟨_, inner, rfl⟩
  | long | longText => exact ⟨_, _, rfl⟩

theorem Wraps.normalize {mode : NormalizeMode} {v held : Json} (h : Wraps mode v held) :
    v.normalize mode = held := by
  obtain ⟨tag, inner, rfl⟩ := h.exists_entry
  rw [Json.normalize, unwrapEntries?_eq_some_iff_wraps.mpr h]

theorem normalize_obj_of_unwrapped {mode : NormalizeMode} {entries : Entries Json}
    (h : unwrapEntries? mode entries = none) :
    (obj entries).normalize mode =
      obj (renameId (primaryId? mode entries) (normalizeFields mode entries)) := by
  rw [normalize, h]

/-- The properties that stay beside an id that moves. -/
def besideId (fields : Entries Json) : Entries Json :=
  fields.filter fun e => e.1 != "id" && e.1 != "_id"

theorem mem_besideId_iff {fields : Entries Json} {e : String × Json} :
    e ∈ besideId fields ↔ e ∈ fields ∧ e.1 ≠ "id" ∧ e.1 ≠ "_id" := by
  rw [besideId, List.mem_filter, Bool.and_eq_true, bne_iff_ne, bne_iff_ne]

theorem besideId_normalizeFields (mode : NormalizeMode) (entries : Entries Json) :
    besideId (normalizeFields mode entries) = normalizeFields mode (besideId entries) := by
  rw [normalizeFields_eq_map, normalizeFields_eq_map, besideId, List.filter_map]
  rfl

/-- Where no name occurs twice, an id that moves stands for all under its old and its new name. -/
theorem perm_renameId {fields : Entries Json} (h : (Entries.keys fields).Nodup) (id : Json) :
    (renameId (some id) fields).Perm (("id", id) :: besideId fields) := by
  have herase : (Entries.keys (Entries.erase fields "_id")).Nodup := Entries.nodup_keys_erase h
  have hput : (renameId (some id) fields).Perm _ := Entries.perm_put herase
  rw [Entries.erase_eq_filter h, List.filter_filter] at hput
  exact hput

/-- An object without the two names keeps its names. -/
theorem normalize_obj {entries : Entries Json} (hoid : "$oid" ∉ Entries.keys entries)
    (hid : "_id" ∉ Entries.keys entries) :
    (obj entries).normalize .idOnly = obj (normalizeFields .idOnly entries) := by
  have hunwrap : unwrapEntries? .idOnly entries = none := by
    rw [Option.eq_none_iff_forall_ne_some]
    intro v hv
    obtain ⟨s, rfl, -⟩ := unwrapEntries?_eq_some_iff.mp hv
    exact hoid List.mem_cons_self
  have hprimary : primaryId? .idOnly entries = none := by
    rw [primaryId?, Entries.find?_eq_none_iff.mpr hid, Option.bind_none]
  rw [normalize_obj_of_unwrapped hunwrap, hprimary, renameId]

/-! ## Values without the names -/

/-- No object in the value has a property `$oid` or `_id`. -/
inductive Unmarked : Json → Prop where
  | null : Unmarked .null
  | bool (b : Bool) : Unmarked (.bool b)
  | int (i : Int) : Unmarked (.int i)
  | float (d : Double) : Unmarked (.float d)
  | str (s : String) : Unmarked (.str s)
  | arr {items : List Json} (h : ∀ v ∈ items, Unmarked v) : Unmarked (.arr items)
  | obj {entries : List (String × Json)} (hoid : "$oid" ∉ Entries.keys entries)
      (hid : "_id" ∉ Entries.keys entries) (h : ∀ e ∈ entries, Unmarked e.2) :
      Unmarked (.obj entries)

theorem unmarked_obj_iff {entries : List (String × Json)} :
    Unmarked (.obj entries) ↔ "$oid" ∉ Entries.keys entries ∧ "_id" ∉ Entries.keys entries ∧
      ∀ e ∈ entries, Unmarked e.2 := by
  constructor
  · intro h
    cases h with
    | obj hoid hid h => exact ⟨hoid, hid, h⟩
  · rintro ⟨hoid, hid, h⟩
    exact .obj hoid hid h

/-- A value without the names is left as it is. -/
theorem Unmarked.normalize {v : Json} (h : v.Unmarked) : v.normalize .idOnly = v := by
  induction h with
  | null | bool | int | float | str => rfl
  | arr _ ih => rw [Json.normalize, normalizeItems_eq_map, List.map_congr_left ih, List.map_id']
  | @obj entries hoid hid _ ih =>
    -- without the names no property moves, so it is enough that their values stay
    have hfields : normalizeFields .idOnly entries = entries := by
      rw [normalizeFields_eq_map]
      exact (List.map_congr_left fun e he => by rw [ih e he]).trans (List.map_id' entries)
    rw [normalize_obj hoid hid, hfields]

end ShellQuery.Json
