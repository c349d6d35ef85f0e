import ShellQuery.Proofs.Bson.Readable

/-!
# Values that are written and read again

Reading a value gives one that can be stored, and the relaxed form of such a value is read again.
It tells apart all types but one: an integer of 64 bits that fits 32 comes back with 32.  What is
read the second time has the same relaxed form as what was read the first time.

The main statement is `converted_relaxed`.
-/

namespace ShellQuery

/-- An id that has been read is read again from its own text. -/
theorem ObjectId.read?_text {digits : String} {id : ObjectId} (h : read? digits = some id) :
    read? id.text = some id := by
  obtain ⟨hlength, hletters⟩ := isLowerHex_of_read? h
  cases id with
  | fresh n =>
    simp only [read?] at h
    split at h <;> cases h
  | hex s =>
    rw [text] at hlength hletters ⊢
    have hlower : "0123456789abcdef".toList.all (fun c => c.toLower = c) = true := by decide
    have hhex : "0123456789abcdef".toList.all Text.isHexDigit = true := by decide
    have hsame : ∀ c ∈ s.toList, c.toLower = c :=
      fun c hc => of_decide_eq_true (List.all_eq_true.mp hlower c (hletters c hc))
    have hsame : s.toList.map Char.toLower = s.toList :=
      (List.map_congr_left hsame).trans (List.map_id _)
    have hdigits : s.toList.all Text.isHexDigit = true :=
      List.all_eq_true.mpr fun c hc => List.all_eq_true.mp hhex c (hletters c hc)
    simp only [read?]
    rw [if_pos ⟨hlength, hdigits⟩, hsame, String.ofList_toList]

namespace Bson

/-! ## What changes -/

mutual

/-- The value with all values inside it changed that hold no others; names stay. -/
def mapLeaves (f : Bson → Bson) : Bson → Bson
  | array items => array (mapItems f items)
  | document fields => document (mapFields f fields)
  | codeWithScope text scope => codeWithScope text (mapFields f scope)
  | b => f b

/-- The values of a list, changed. -/
def mapItems (f : Bson → Bson) : List Bson → List Bson
  | [] => []
  | item :: items => mapLeaves f item :: mapItems f items

/-- The values of named members, changed. -/
def mapFields (f : Bson → Bson) : List (String × Bson) → List (String × Bson)
  | [] => []
  | (name, item) :: fields => (name, mapLeaves f item) :: mapFields f fields

end

/-- An integer of 64 bits takes 32 where it fits them. -/
def narrow : Bson → Bson
  | int64 i => ofInt i
  | b => b

/-- Decimal numbers that are none are one and the same. -/
def plainNan : Bson → Bson
  | decimal d => decimal d.plainNan
  | b => b

/-- What a value comes back as. -/
def reread (b : Bson) : Bson :=
  b.mapLeaves fun leaf => leaf.narrow.plainNan

theorem mapLeaves_of_isLeaf {b : Bson} (h : b.IsLeaf) (f : Bson → Bson) : b.mapLeaves f = f b := by
  cases b <;> first | rfl | exact h.elim

/-! ## Values that can be stored -/

/-- Values as reading leaves them: leaves within their bounds, and documents without the names of
    wrappers.  The scope of program text may have any names. -/
inductive Storable : Bson → Prop where
  | leaf {b : Bson} (h : b.IsStored) : Storable b
  | array {items : List Bson} (h : ∀ b ∈ items, Storable b) : Storable (.array items)
  | document {fields : List (String × Bson)} (hplain : IsPlain fields)
      (h : ∀ e ∈ fields, Storable e.2) : Storable (.document fields)
  | codeWithScope {text : String} {scope : List (String × Bson)} (h : ∀ e ∈ scope, Storable e.2) :
      Storable (.codeWithScope text scope)

mutual

/-- What is read can be stored.  The cases follow the recursion of the reader. -/
theorem storable_of_ofJson? {v : Json} {b : Bson} (h : ofJson? v = some b) : Storable b := by
  match v with
  | .null => cases h; exact .leaf trivial
  | .bool _ => cases h; exact .leaf trivial
  | .float _ => cases h; exact .leaf trivial
  | .str _ => cases h; exact .leaf trivial
  | .int i =>
    rw [ofJson?] at h
    split at h
    · next hfits =>
      -- as many bits as the integer needs
      rw [ofInt] at h
      split at h
      · next hnarrow => cases h; exact .leaf hnarrow
      · cases h; exact .leaf hfits
    · split at h <;> cases h
      exact .leaf trivial
  | .arr items =>
    rw [ofJson?] at h
    obtain ⟨values, hvalues, rfl⟩ := Option.map_eq_some_iff.mp h
    exact .array (storable_of_ofItems? hvalues)
  | .obj entries =>
    obtain hstored | ⟨text, scope, rfl, hscope⟩ | ⟨hplain, fields, rfl, hfields⟩ :=
      ofJson?_obj_cases h
    · exact .leaf hstored
    · exact .codeWithScope (storable_of_ofScope? hscope)
    · refine .document ?_ (storable_of_ofFields? hfields)
      rw [IsPlain, keys_of_ofFields? hfields]
      exact hplain

theorem storable_of_ofItems? {items : List Json} {values : List Bson}
    (h : ofItems? items = some values) : ∀ b ∈ values, Storable b := by
  match items with
  | [] => cases h; exact nofun
  | item :: rest =>
    rw [ofItems?] at h
    split at h
    · next value hvalue =>
      obtain ⟨more, hmore, rfl⟩ := Option.map_eq_some_iff.mp h
      exact List.forall_mem_cons.mpr ⟨storable_of_ofJson? hvalue, storable_of_ofItems? hmore⟩
    · cases h

theorem storable_of_ofFields? {entries : List (String × Json)} {fields : Document}
    (h : ofFields? entries = some fields) : ∀ e ∈ fields, Storable e.2 := by
  match entries with
  | [] => cases h; exact nofun
  | (name, item) :: rest =>
    rw [ofFields?] at h
    split at h
    · next value hvalue =>
      obtain ⟨more, hmore, rfl⟩ := Option.map_eq_some_iff.mp h
      exact List.forall_mem_cons.mpr ⟨storable_of_ofJson? hvalue, storable_of_ofFields? hmore⟩
    · cases h

theorem storable_of_ofScope? {entries : List (String × Json)} {scope : Document}
    (h : ofScope? entries = some (.document scope)) : ∀ e ∈ scope, Storable e.2 := by
  match entries with
  | [] => cases h
  | (name, item) :: rest =>
    rw [ofScope?] at h
    split at h
    · exact storable_of_ofScopeValue? h
    · exact storable_of_ofScope? h

theorem storable_of_ofScopeValue? {v : Json} {scope : Document}
    (h : ofScopeValue? v = some (.document scope)) : ∀ e ∈ scope, Storable e.2 := by
  match v with
  | .obj entries =>
    rw [ofScopeValue?] at h
    obtain ⟨fields, hfields, heq⟩ := Option.map_eq_some_iff.mp h
    cases heq
    exact storable_of_ofFields? hfields

end

/-! ## Leaves -/

theorem ofJson?_date (v : Json) : ofJson? (wrap "$date" v) = (millis? v).map dateTime :=
  rfl

theorem ofJson?_instantJson {millis : Int} (h : Text.fitsSigned64 millis = true) :
    ofJson? (instantJson millis) = some (dateTime millis) := by
  unfold instantJson
  split
  · next hbounds =>
    -- the text form
    have htext : (millis.toNat : Int) = millis := Int.toNat_of_nonneg hbounds.1
    have hread := @Calendar.readInstant_instantText millis.toNat (htext ▸ hbounds.2)
    rw [wrapText, ofJson?_date, millis?, String.toList_ofList, hread, htext, Option.map_some]
  · -- the number of milliseconds, where no text is written
    have hread : int64Text? [("$numberLong", .str (String.ofList (Text.intDigits millis)))] =
        Text.readSigned64 (String.ofList (Text.intDigits millis)).toList := rfl
    rw [millisJson, ofJson?_date, wrapText, wrap, millis?, hread, String.toList_ofList,
      Text.readSigned64_intDigits h, Option.map_some]

theorem unsigned32?_natCast {n : Nat} (h : n < 4294967296) : unsigned32? (.int n) = some n :=
  Json.natural?_eq_some_iff.mpr ⟨rfl, Nat.zero_le n, h⟩

theorem ofJson?_timestamp {t i : Json} {seconds increment : Nat}
    (ht : unsigned32? t = some seconds) (hi : unsigned32? i = some increment) :
    ofJson? (wrap "$timestamp" (.obj [("t", t), ("i", i)])) = some (timestamp seconds increment) := by
  have hwrapper : ∀ v, ofJson? (wrap "$timestamp" v) = readTimestamp [("$timestamp", v)] :=
    fun _ => rfl
  have hrecord : (single? "$timestamp" [("$timestamp", .obj [("t", t), ("i", i)])]).bind
      (record? ["t", "i"]) = some [t, i] := rfl
  rw [hwrapper, readTimestamp, hrecord]
  simp only [ht, hi]

theorem ofJson?_binaryJson {subtype : Nat} {bytes : List Nat} (hsubtype : subtype < 256)
    (hbytes : Base64.AreBytes bytes) :
    ofJson? (binaryJson subtype bytes) = some (binary subtype bytes) := by
  have hkind : hexBytes? (Text.hexByte subtype) = some [subtype] := by
    have hpair := Text.natOfHex?_hexByte hsubtype
    rw [Text.hexByte] at hpair ⊢
    rw [hexBytes?, hpair]
    rfl
  have hwrapper : ∀ v, ofJson? (wrap "$binary" v) = readBinary [("$binary", v)] := fun _ => rfl
  have hrecord : ∀ text kind, (single? "$binary"
      [("$binary", .obj [("base64", .str text), ("subType", .str kind)])]).bind
        (record? ["base64", "subType"]) = some [.str text, .str kind] := fun _ _ => rfl
  rw [binaryJson, hwrapper, readBinary, hrecord]
  simp only [String.toList_ofList, Base64.decode_encode hbytes, hkind]

/-- A value without other values is read from its relaxed form: the same but for the width of an
    integer and for what is no number. -/
theorem ofJson?_relaxed_of_isStored {b : Bson} (h : b.IsStored) :
    ofJson? b.relaxed = some b.narrow.plainNan := by
  cases b with
  | double x =>
    cases x with
    | finite d => rfl
    | infinite negative => cases negative <;> rfl
    | nan negative => cases negative <;> rfl
  | string s => rfl
  | array => exact h.elim
  | document => exact h.elim
  | boolean => rfl
  | null => rfl
  | regex pattern options =>
    -- the options are sorted once more
    show some (regex pattern (String.ofList (sortChars options.toList))) = some (regex pattern options)
    rw [h, String.ofList_toList]
  | code => rfl
  | codeWithScope => exact h.elim
  | int32 i =>
    -- what fits 32 bits fits 64, and the reader takes the fewer ones
    have hwide : Text.fitsSigned64 i = true := by
      simp only [IsStored, Text.fitsSigned32, Text.fitsSigned64, Bool.and_eq_true,
        decide_eq_true_eq] at h ⊢
      omega
    have hfits : Text.fitsSigned32 i = true := h
    rw [relaxed, ofJson?, if_pos hwide, ofInt, if_pos hfits]
    rfl
  | int64 i =>
    have hfits : Text.fitsSigned64 i = true := h
    rw [relaxed, ofJson?, if_pos hfits, narrow, ofInt]
    split <;> rfl
  | timestamp t i => exact ofJson?_timestamp (unsigned32?_natCast h.1) (unsigned32?_natCast h.2)
  | binary subtype bytes => exact ofJson?_binaryJson h.1 h.2
  | objectId id =>
    obtain ⟨digits, hdigits⟩ := h
    show (ObjectId.read? id.text).map objectId = _
    rw [ObjectId.read?_text hdigits]
    rfl
  | dateTime millis => exact ofJson?_instantJson h
  | symbol => rfl
  | decimal d =>
    show (Decimal128.read? (String.ofList d.text).toList).map decimal = _
    rw [String.toList_ofList, Decimal128.read?_text h]
    rfl
  | undefined => rfl
  | maxKey => rfl
  | minKey => rfl
  | dbPointer collection id =>
    obtain ⟨digits, hdigits⟩ := h
    show (ObjectId.read? id.text).map (dbPointer collection) = _
    rw [ObjectId.read?_text hdigits]
    rfl

/-! ## All values -/

theorem ofFields?_relaxedFields {fields : Document}
    (h : ∀ e ∈ fields, ofJson? e.2.relaxed = some e.2.reread) :
    ofFields? (relaxedFields fields) =
      some (mapFields (fun leaf => leaf.narrow.plainNan) fields) := by
  induction fields with
  | nil => rfl
  | cons e rest ih =>
    obtain ⟨hfirst, hrest⟩ := List.forall_mem_cons.mp h
    rw [relaxedFields, ofFields?, hfirst, ih hrest]
    rfl

theorem ofItems?_relaxedItems {items : List Bson}
    (h : ∀ b ∈ items, ofJson? b.relaxed = some b.reread) :
    ofItems? (relaxedItems items) = some (mapItems (fun leaf => leaf.narrow.plainNan) items) := by
  induction items with
  | nil => rfl
  | cons b rest ih =>
    obtain ⟨hfirst, hrest⟩ := List.forall_mem_cons.mp h
    rw [relaxedItems, ofItems?, hfirst, ih hrest]
    rfl

/-- A value that can be stored is read from its relaxed form. -/
theorem Storable.ofJson?_relaxed {b : Bson} (h : Storable b) :
    ofJson? b.relaxed = some b.reread := by
  induction h with
  | leaf h => rw [ofJson?_relaxed_of_isStored h, reread, mapLeaves_of_isLeaf h.isLeaf]
  | array _ ih =>
    rw [relaxed, ofJson?, ofItems?_relaxedItems ih]
    rfl
  | @document fields hplain _ ih =>
    -- the names are the same, so neither form is a wrapper
    have hnames : IsPlain (relaxedFields fields) := by
      rw [IsPlain, keys_relaxedFields]
      exact hplain
    rw [relaxed, ofJson?_of_isPlain hnames, ofFields?_relaxedFields ih]
    rfl
  | @codeWithScope text scope _ ih =>
    -- the scope is read as a document of any names
    have hread : ofJson? (Bson.codeWithScope text scope).relaxed =
        readCode [("$code", .str text), ("$scope", .obj (relaxedFields scope))]
          ((ofFields? (relaxedFields scope)).map Bson.document) := rfl
    rw [hread, ofFields?_relaxedFields ih]
    rfl

mutual

/-- Values whose leaves are written alike are written alike. -/
theorem relaxed_mapLeaves {f : Bson → Bson} (hf : ∀ b, (f b).relaxed = b.relaxed) (b : Bson) :
    (b.mapLeaves f).relaxed = b.relaxed := by
  cases b with
  | array items => rw [mapLeaves, relaxed, relaxed, relaxedItems_mapItems hf items]
  | document fields => rw [mapLeaves, relaxed, relaxed, relaxedFields_mapFields hf fields]
  | codeWithScope text scope => rw [mapLeaves, relaxed, relaxed, relaxedFields_mapFields hf scope]
  | _ => exact hf _

theorem relaxedItems_mapItems {f : Bson → Bson} (hf : ∀ b, (f b).relaxed = b.relaxed)
    (items : List Bson) : relaxedItems (mapItems f items) = relaxedItems items := by
  match items with
  | [] => rfl
  | b :: rest =>
    rw [mapItems, relaxedItems, relaxedItems, relaxed_mapLeaves hf b, relaxedItems_mapItems hf rest]

theorem relaxedFields_mapFields {f : Bson → Bson} (hf : ∀ b, (f b).relaxed = b.relaxed)
    (fields : List (String × Bson)) :
    relaxedFields (mapFields f fields) = relaxedFields fields := by
  match fields with
  | [] => rfl
  | (name, b) :: rest =>
    rw [mapFields, relaxedFields, relaxedFields, relaxed_mapLeaves hf b,
      relaxedFields_mapFields hf rest]

end

/-- What comes back is written as what was written before. -/
theorem relaxed_reread (b : Bson) : b.reread.relaxed = b.relaxed := by
  refine relaxed_mapLeaves (fun leaf => ?_) b
  cases leaf with
  | int64 i =>
    rw [narrow, ofInt]
    split <;> rfl
  | decimal d => cases d <;> rfl
  | _ => rfl

/-- What a value is read as can be fed back in its relaxed form: it is read again, as the same value
    but for the width of integers, and has that same form.  Documents come back as documents. -/
theorem converted_relaxed {v : Json} :
    (∀ b, convert v = .ok b → convert b.relaxed = .ok b.reread ∧ b.reread.relaxed = b.relaxed) ∧
      ∀ d, Document.convert v = .ok d →
        Document.convert (Document.toJson d) =
            .ok (mapFields (fun leaf => leaf.narrow.plainNan) d) ∧
          Document.toJson (mapFields (fun leaf => leaf.narrow.plainNan) d) = Document.toJson d := by
  constructor
  · intro b h
    have hstorable := storable_of_ofJson? (convert_eq_ok_iff.mp h)
    exact ⟨convert_eq_ok_iff.mpr hstorable.ofJson?_relaxed, relaxed_reread b⟩
  · intro d h
    have hstorable := storable_of_ofJson? (Document.convert_eq_ok_iff.mp h)
    exact ⟨Document.convert_eq_ok_iff.mpr hstorable.ofJson?_relaxed, relaxed_reread (document d)⟩

/-- An integer comes back with fewer bits, a moment of a leap day as it was. -/
theorem converted_relaxed_leap_day :
    convert (.obj [("n", .obj [("$numberLong", .str "5")]),
        ("at", .obj [("$date", .str "2000-02-29T12:00:00.5Z")])]) =
        .ok (document [("n", int64 5), ("at", dateTime 951825600500)]) ∧
      convert (document [("n", int64 5), ("at", dateTime 951825600500)]).relaxed =
        .ok (document [("n", int32 5), ("at", dateTime 951825600500)]) := by
  have hread : convert (.obj [("n", .obj [("$numberLong", .str "5")]),
      ("at", .obj [("$date", .str "2000-02-29T12:00:00.5Z")])]) =
      .ok (document [("n", int64 5), ("at", dateTime 951825600500)]) := by
    have hmoment : Calendar.readInstant "2000-02-29T12:00:00.5Z".toList = some 951825600500 := by
      decide
    have hat : ofJson? (wrap "$date" (.str "2000-02-29T12:00:00.5Z")) =
        some (dateTime 951825600500) := by
      rw [ofJson?_date, millis?, hmoment, Option.map_some]
    have hn : ofJson? (wrap "$numberLong" (.str "5")) = some (int64 5) := rfl
    have hplain : IsPlain [("n", wrap "$numberLong" (.str "5")),
        ("at", wrap "$date" (.str "2000-02-29T12:00:00.5Z"))] := by
      unfold IsPlain
      decide
    have hfields : ofFields? [("n", wrap "$numberLong" (.str "5")),
        ("at", wrap "$date" (.str "2000-02-29T12:00:00.5Z"))] =
        some [("n", int64 5), ("at", dateTime 951825600500)] := by
      simp only [ofFields?, hn, hat, Option.map_some]
    exact convert_eq_ok_iff.mpr ((ofJson?_of_isPlain hplain).trans (by rw [hfields]; rfl))
  exact ⟨hread, (converted_relaxed.1 _ hread).1⟩

end Bson

end ShellQuery
