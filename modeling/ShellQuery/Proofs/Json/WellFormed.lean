import ShellQuery.Proofs.Entries
import ShellQuery.Proofs.Json.Reading

/-!
# Values with distinct names

An object that is read from a text has each name once: a name that is written again replaces the
value in place.  `WellFormed` states this for all objects of a value, however deep.

The main statement is `Denotes.wellFormed`: every value that a text denotes is well-formed.
-/

namespace ShellQuery.Json

/-- No object of the value has a name twice. -/
inductive WellFormed : Json → Prop where
  | null : WellFormed .null
  | bool (b : Bool) : WellFormed (.bool b)
  | int (i : Int) : WellFormed (.int i)
  | float (d : Double) : WellFormed (.float d)
  | str (s : String) : WellFormed (.str s)
  | arr {items : List Json} (h : ∀ v ∈ items, WellFormed v) : WellFormed (.arr items)
  | obj {entries : List (String × Json)} (hnodup : (Entries.keys entries).Nodup)
      (h : ∀ e ∈ entries, WellFormed e.2) : WellFormed (.obj entries)

theorem WellFormed.items {items : List Json} (h : WellFormed (.arr items)) :
    ∀ v ∈ items, WellFormed v := by
  cases h with
  | arr h => exact h

theorem WellFormed.nodup_keys {entries : List (String × Json)} (h : WellFormed (.obj entries)) :
    (Entries.keys entries).Nodup := by
  cases h with
  | obj hnodup _ => exact hnodup

theorem wellFormed_obj_iff {entries : List (String × Json)} :
    WellFormed (.obj entries) ↔
      (Entries.keys entries).Nodup ∧ ∀ e ∈ entries, WellFormed e.2 := by
  constructor
  · intro h
    cases h with
    | obj hnodup h => exact ⟨hnodup, h⟩
  · rintro ⟨hnodup, h⟩
    exact .obj hnodup h

/-! ## Tokens -/

private theorem wellFormed_of_toJson? {n : Numeral} {v : Json} (h : n.toJson? = some v) :
    WellFormed v := by
  simp only [Numeral.toJson?] at h
  split at h
  · cases h
    exact .int _
  · split at h
    · cases h
      exact .int _
    · obtain ⟨d, -, rfl⟩ := Option.map_eq_some_iff.mp h
      exact .float d

private theorem Lexeme.wellFormed {v : Json} {l : List Char} (h : Lexeme (.leaf v) l) :
    WellFormed v := by
  cases h with
  | @punctuation c _ hc =>
    -- no mark of punctuation is a value
    unfold punctuation? at hc
    split at hc <;> cases hc
  | null => exact .null
  | bool b => exact .bool b
  | string _ => exact .str _
  | number _ hv => exact wellFormed_of_toJson? hv

/-- The values among the tokens of a text hold no objects. -/
private theorem Spelling.wellFormed {ts : List Token} {s : List Char} (h : Spelling ts s) {v : Json}
    (hv : .leaf v ∈ ts) : WellFormed v := by
  induction h with
  | nil => cases hv
  | space _ _ ih => exact ih hv
  | token ht _ ih =>
    obtain rfl | hrest := List.mem_cons.mp hv
    · exact ht.wellFormed
    · exact ih hrest

/-! ## Phrases -/

/-- All values in a phrase are well-formed; members of an object may still repeat a name. -/
def Phrase.WellFormed : Phrase → Prop
  | .value v => v.WellFormed
  | .items vs => ∀ v ∈ vs, v.WellFormed
  | .fields fs => ∀ f ∈ fs, f.2.WellFormed

/-- A phrase is well-formed when the values among its tokens are. -/
theorem Derives.wellFormed {d : Nat} {p : Phrase} {ts : List Token} (h : Derives d p ts)
    (hleaf : ∀ v, .leaf v ∈ ts → v.WellFormed) : p.WellFormed := by
  -- on the derivation; the tokens of a part of a phrase are among those of the phrase
  induction h with
  | leaf v => exact hleaf v List.mem_cons_self
  | emptyArray => exact .arr nofun
  | emptyObject => exact .obj List.nodup_nil nofun
  | array _ ih => exact .arr (ih fun v hv => hleaf v (by simp [hv]))
  | object _ ih =>
    -- what the text writes under a name twice is kept once
    have hfields := ih fun v hv => hleaf v (by simp [hv])
    exact .obj (Entries.nodup_keys_ofList _) fun e he => hfields e (Entries.mem_of_mem_ofList he)
  | lastItem _ ih =>
    intro v hv
    obtain rfl := List.mem_singleton.mp hv
    exact ih hleaf
  | item _ _ ih ihs =>
    intro v hv
    obtain rfl | hrest := List.mem_cons.mp hv
    · exact ih fun v hv => hleaf v (by simp [hv])
    · exact ihs (fun v hv => hleaf v (by simp [hv])) v hrest
  | lastField _ ih =>
    intro f hf
    obtain rfl := List.mem_singleton.mp hf
    exact ih fun v hv => hleaf v (by simp [hv])
  | field _ _ ih ihs =>
    intro f hf
    obtain rfl | hrest := List.mem_cons.mp hf
    · exact ih fun v hv => hleaf v (by simp [hv])
    · exact ihs (fun v hv => hleaf v (by simp [hv])) f hrest

/-- A value that a text denotes has no name twice in any of its objects. -/
theorem Denotes.wellFormed {depth : Nat} {s : List Char} {v : Json} (h : Denotes depth s v) :
    v.WellFormed := by
  obtain ⟨ts, hspelling, hderives⟩ := h
  exact hderives.wellFormed fun _ hleaf => hspelling.wellFormed hleaf

end ShellQuery.Json
