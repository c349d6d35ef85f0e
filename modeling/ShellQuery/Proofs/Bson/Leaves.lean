import ShellQuery.Bson.Convert
import ShellQuery.Proofs.Bson.Base64
import ShellQuery.Proofs.Bson.Calendar
import ShellQuery.Proofs.Bson.Decimal128

/-!
# Values without other values

What the readers of the wrappers return: values that hold no other values and whose numbers, bytes
and options are within the bounds of their types.
-/

namespace ShellQuery

namespace Bson

/-- A value that holds no other values; the ids in it have been read. -/
def IsLeaf : Bson → Prop
  | document _ | array _ | codeWithScope _ _ => False
  | objectId id | dbPointer _ id => ∃ digits, ObjectId.read? digits = some id
  | _ => True

/-- A value that holds no other values and that can be stored: its parts are as reading leaves
    them. -/
def IsStored : Bson → Prop
  | document _ | array _ | codeWithScope _ _ => False
  | objectId id | dbPointer _ id => ∃ digits, ObjectId.read? digits = some id
  | int32 i => Text.fitsSigned32 i = true
  | int64 i | dateTime i => Text.fitsSigned64 i = true
  | regex _ options => sortChars options.toList = options.toList
  | timestamp t i => t < 4294967296 ∧ i < 4294967296
  | binary subtype bytes => subtype < 256 ∧ Base64.AreBytes bytes
  | decimal d => d.IsStored
  | _ => True

theorem IsStored.isLeaf {b : Bson} (h : b.IsStored) : b.IsLeaf := by
  cases b <;> first | exact h | trivial

/-- The reader returns values that can be stored. -/
def ReadsStored (read : Entries Json → Option Bson) : Prop :=
  ∀ entries b, read entries = some b → b.IsStored

/-! ## Parts of wrappers -/

theorem fitsSigned64_of_readSigned64 {s : List Char} {i : Int} (h : Text.readSigned64 s = some i) :
    Text.fitsSigned64 i = true :=
  (Option.filter_eq_some_iff.mp h).2

theorem unsigned32?_lt {v : Json} {n : Nat} (h : unsigned32? v = some n) : n < 4294967296 :=
  (Json.natural?_eq_some_iff.mp h).2.2

/-- Two hexadecimal digits write a byte. -/
theorem areBytes_of_hexBytes? {s : List Char} {bytes : List Nat} (h : hexBytes? s = some bytes) :
    Base64.AreBytes bytes := by
  fun_induction hexBytes? s generalizing bytes with
  | case1 =>
    cases h
    exact nofun
  | case2 a b rest byte more hbyte hmore ih =>
    cases h
    exact List.forall_mem_cons.mpr ⟨Text.lt_of_natOfHex? hmore, ih hbyte⟩
  | case3 => cases h
  | case4 => cases h

theorem areBytes_of_uuid? {s : List Char} {bytes : List Nat} (h : uuid? s = some bytes) :
    Base64.AreBytes bytes := by
  -- the digits are the same in every notation
  have hyphenated : ∀ r, hyphenated? r = some bytes → Base64.AreBytes bytes := by
    intro r h
    unfold hyphenated? at h
    split at h
    · obtain ⟨-, h⟩ := Option.ite_none_right_eq_some.mp h
      exact areBytes_of_hexBytes? h
    · cases h
  unfold uuid? at h
  split at h
  · exact areBytes_of_hexBytes? h
  · split at h
    · obtain ⟨-, h⟩ := Option.ite_none_right_eq_some.mp h
      exact hyphenated _ h
    · exact hyphenated _ h
    · exact hyphenated _ h

theorem fitsSigned64_of_millis? {v : Json} {millis : Int} (h : millis? v = some millis) :
    Text.fitsSigned64 millis = true := by
  unfold millis? at h
  -- digits in a wrapper or a list, the text of a point in time, or an integer
  split at h
  · obtain ⟨_, -, h⟩ := Option.bind_eq_some_iff.mp h
    exact fitsSigned64_of_readSigned64 h
  · exact fitsSigned64_of_readSigned64 h
  · exact Calendar.fitsSigned64_of_readInstant h
  · obtain ⟨hfits, h⟩ := Option.ite_none_right_eq_some.mp h
    cases h
    exact hfits
  · cases h

/-- Sorted characters are sorted again as they stand. -/
theorem sortChars_sortChars (s : List Char) : sortChars (sortChars s) = sortChars s := by
  -- sorting changes nothing about what is in order
  apply List.mergeSort_of_pairwise
  apply List.pairwise_mergeSort
  · intro a b c hab hbc
    simp only [decide_eq_true_eq] at *
    omega
  · intro a b
    simp only [Bool.or_eq_true, decide_eq_true_eq]
    omega

theorem read_of_pointerId? {v : Json} {id : ObjectId} (h : pointerId? v = some id) :
    ∃ digits, ObjectId.read? digits = some id := by
  unfold pointerId? at h
  split at h
  · obtain ⟨digits, -, hdigits⟩ := Option.bind_eq_some_iff.mp h
    exact ⟨digits, hdigits⟩
  · exact ⟨_, h⟩
  · cases h

/-! ## Wrappers -/

/-- A reader of a wrapped text returns what the text is read as. -/
theorem readsStored_of_text {α : Type} {wrap : α → Bson} {name : String} {read? : String → Option α}
    (h : ∀ s a, read? s = some a → (wrap a).IsStored) :
    ReadsStored fun entries => ((singleText? name entries).bind read?).map wrap := by
  intro entries b hread
  obtain ⟨a, ha, rfl⟩ := Option.map_eq_some_iff.mp hread
  obtain ⟨s, -, hs⟩ := Option.bind_eq_some_iff.mp ha
  exact h s a hs

theorem readsStored_readSymbol : ReadsStored readSymbol := by
  intro entries b h
  obtain ⟨_, -, rfl⟩ := Option.map_eq_some_iff.mp h
  trivial

theorem readsStored_readRegex : ReadsStored readRegex := by
  intro entries b h
  unfold readRegex at h
  split at h
  · cases h
    simp only [IsStored, String.toList_ofList]
    exact sortChars_sortChars _
  · cases h

theorem readsStored_readBinary : ReadsStored readBinary := by
  intro entries b h
  unfold readBinary at h
  split at h
  · split at h
    · next bytes subtype hbytes hkind =>
      cases h
      exact ⟨areBytes_of_hexBytes? hkind subtype List.mem_cons_self,
        Base64.areBytes_of_decode hbytes⟩
    · cases h
  · cases h

theorem readsStored_readTimestamp : ReadsStored readTimestamp := by
  intro entries b h
  unfold readTimestamp at h
  split at h
  · split at h
    · next ht hi =>
      cases h
      exact ⟨unsigned32?_lt ht, unsigned32?_lt hi⟩
    · cases h
  · cases h

theorem readsStored_readDateTime : ReadsStored readDateTime := by
  intro entries b h
  obtain ⟨millis, hmillis, rfl⟩ := Option.map_eq_some_iff.mp h
  obtain ⟨v, -, hv⟩ := Option.bind_eq_some_iff.mp hmillis
  exact fitsSigned64_of_millis? hv

theorem readsStored_readOne {name : String} {result : Bson} (hresult : result.IsStored) :
    ReadsStored (readOne name result) := by
  intro entries b h
  unfold readOne at h
  split at h
  · cases h
    exact hresult
  · cases h

theorem readsStored_readPointer : ReadsStored readPointer := by
  intro entries b h
  unfold readPointer at h
  split at h
  · obtain ⟨id, hid, rfl⟩ := Option.map_eq_some_iff.mp h
    exact read_of_pointerId? hid
  · cases h

theorem readsStored_readUndefined : ReadsStored readUndefined := by
  intro entries b h
  unfold readUndefined at h
  split at h
  · cases h
    trivial
  · cases h

theorem readsStored_firstWrappers : ∀ w ∈ firstWrappers, ReadsStored w.2 := by
  -- one wrapper after the other in the order of the list
  simp only [firstWrappers, List.forall_mem_cons]
  refine ⟨readsStored_of_text fun s _ h => ⟨s, h⟩, readsStored_readSymbol, readsStored_readRegex,
    readsStored_of_text fun _ _ h => (Option.filter_eq_some_iff.mp h).2, ?int64,
    readsStored_of_text fun _ _ _ => trivial,
    readsStored_of_text fun _ _ h => Decimal128.isStored_of_read? h, readsStored_readBinary,
    readsStored_of_text fun _ _ h => ⟨by decide, areBytes_of_uuid? h⟩, nofun⟩
  exact readsStored_of_text fun _ _ h => fitsSigned64_of_readSigned64 h

theorem readsStored_lastWrappers : ∀ w ∈ lastWrappers, ReadsStored w.2 := by
  simp only [lastWrappers, List.forall_mem_cons]
  exact ⟨readsStored_readTimestamp, readsStored_readDateTime, readsStored_readOne trivial,
    readsStored_readOne trivial, readsStored_readPointer, readsStored_readUndefined, nofun⟩

end Bson

end ShellQuery
