import ShellQuery.Error
import ShellQuery.Proofs.Json.Exact

/-!
# The texts of a failure

A failure of the backend has two texts: a compact one, which wraps its info in an object, and the
info by itself as pretty text.  `BackendFailure.Carries` says which report a failure brings along,
and `FailureInfo.Says` which members show it.

The main statement is `BackendFailure.texts_state_info`: both texts are valid JSON, and they state
the same object, which says what the report says and nothing else.
-/

namespace ShellQuery

/-! ## Stored values in a report -/

namespace Bson

/-- The value holds other values. -/
def IsNested : Bson → Prop
  | document _ | array _ | codeWithScope _ _ => True
  | _ => False

/-- No document of the value has a name twice, however deep it stands. -/
inductive DistinctNames : Bson → Prop where
  | single {b : Bson} (h : ¬ b.IsNested) : DistinctNames b
  | array {items : List Bson} (h : ∀ b ∈ items, DistinctNames b) : DistinctNames (.array items)
  | document {fields : List (String × Bson)} (hnodup : (Entries.keys fields).Nodup)
      (h : ∀ e ∈ fields, DistinctNames e.2) : DistinctNames (.document fields)
  | codeWithScope {text : String} {scope : List (String × Bson)}
      (hnodup : (Entries.keys scope).Nodup) (h : ∀ e ∈ scope, DistinctNames e.2) :
      DistinctNames (.codeWithScope text scope)

theorem reportedItems_eq_map (items : List Bson) : reportedItems items = items.map reported := by
  induction items with
  | nil => rfl
  | cons b rest ih => rw [reportedItems, ih, List.map_cons]

theorem reportedFields_eq_map (fields : Document) :
    reportedFields fields = fields.map fun e => (e.1, e.2.reported) := by
  induction fields with
  | nil => rfl
  | cons e rest ih => rw [reportedFields, ih, List.map_cons]

/-- A document keeps its names in a report. -/
theorem keys_reportedFields (fields : Document) :
    Entries.keys (reportedFields fields) = Entries.keys fields := by
  rw [reportedFields_eq_map, Entries.keys, List.map_map]
  rfl

theorem wellFormed_wrap {name : String} {v : Json} (h : v.WellFormed) : (wrap name v).WellFormed :=
  .obj (List.nodup_singleton name) fun e he => by
    rw [List.mem_singleton.mp he]
    exact h

/-- An object with two members of different names. -/
theorem wellFormed_pair {first second : String} {v w : Json} (hne : first ≠ second)
    (hv : v.WellFormed) (hw : w.WellFormed) : (Json.obj [(first, v), (second, w)]).WellFormed := by
  refine .obj (by simpa [Entries.keys] using hne) fun e he => ?_
  obtain rfl | he := List.mem_cons.mp he
  · exact hv
  · rw [List.mem_singleton.mp he]
    exact hw

theorem wellFormed_byteList (bytes : List Nat) : (byteList bytes).WellFormed := by
  refine .arr fun v hv => ?_
  obtain ⟨b, -, rfl⟩ := List.mem_map.mp hv
  exact .int b

theorem wellFormed_objectIdJson (id : ObjectId) : (objectIdJson id).WellFormed :=
  wellFormed_wrap (.str id.text)

/-- A value without others becomes a plain value, a list of bytes or a wrapper. -/
theorem wellFormed_reported_of_not_isNested {b : Bson} (h : ¬ b.IsNested) :
    b.reported.WellFormed := by
  cases b with
  | document | array | codeWithScope => exact absurd trivial h
  | double x =>
    cases x with
    | finite d => exact .float d
    | infinite | nan => exact .null
  | binary subtype bytes =>
    rw [reported]
    split
    · exact wellFormed_byteList bytes
    · exact wellFormed_wrap (wellFormed_pair (by decide) (.str _) (.str _))
  | dateTime millis => exact wellFormed_wrap (wellFormed_wrap (.str _))
  | decimal d => exact wellFormed_wrap (wellFormed_byteList d.bytes)
  | string s => exact .str s
  | boolean b => exact .bool b
  | null => exact .null
  | int32 i | int64 i => exact .int i
  | regex pattern options =>
    exact wellFormed_wrap (wellFormed_pair (by decide) (.str pattern) (.str options))
  | timestamp t i => exact wellFormed_wrap (wellFormed_pair (by decide) (.int t) (.int i))
  | dbPointer collection id =>
    exact wellFormed_wrap
      (wellFormed_pair (by decide) (.str collection) (wellFormed_objectIdJson id))
  | code text | symbol text => exact wellFormed_wrap (.str text)
  | objectId id => exact wellFormed_objectIdJson id
  | undefined => exact wellFormed_wrap (.bool true)
  | maxKey | minKey => exact wellFormed_wrap (.int 1)

/-- The members of a document in a report, when their values are well-formed. -/
private theorem wellFormed_reportedFields_of {fields : Document}
    (hnodup : (Entries.keys fields).Nodup) (h : ∀ e ∈ fields, e.2.reported.WellFormed) :
    (Json.obj (reportedFields fields)).WellFormed := by
  refine .obj (by rwa [keys_reportedFields]) fun e he => ?_
  rw [reportedFields_eq_map] at he
  obtain ⟨e, hmem, rfl⟩ := List.mem_map.mp he
  exact h e hmem

theorem DistinctNames.wellFormed_reported {b : Bson} (h : b.DistinctNames) :
    b.reported.WellFormed := by
  induction h with
  | single h => exact wellFormed_reported_of_not_isNested h
  | @array items _ ih =>
    rw [reported, reportedItems_eq_map]
    refine .arr fun v hv => ?_
    obtain ⟨b, hmem, rfl⟩ := List.mem_map.mp hv
    exact ih b hmem
  | document hnodup _ ih => exact wellFormed_reportedFields_of hnodup ih
  | codeWithScope hnodup _ ih =>
    exact wellFormed_pair (by decide) (.str _) (wellFormed_reportedFields_of hnodup ih)

theorem DistinctNames.member {fields : Document} (h : (Bson.document fields).DistinctNames)
    {e : String × Bson} (he : e ∈ fields) : e.2.DistinctNames := by
  cases h with
  | single h => exact absurd trivial h
  | document _ h => exact h e he

end Bson

/-! ## Reports -/

/-- What the backend reports of one thing that went wrong. -/
structure Report where
  code : Int
  message : String
  details : Option Document

/-- The key that clashed: the document under `keyValue` in the details or, if they have no such
    entry, the one under `keyPattern`. -/
def Report.HasKey (report : Report) (key : Document) : Prop :=
  ∃ fields, report.details = some fields ∧
    (Entries.find? fields "keyValue" = some (.document key) ∨
      Entries.find? fields "keyValue" = none ∧
        Entries.find? fields "keyPattern" = some (.document key))

/-- The report that a failed command, write or insert brings along.  Of several faults of one insert
    it is the first, and a missing acknowledgement counts only when there is none. -/
inductive BackendFailure.Carries : BackendFailure → Option Report → Prop where
  | command (code : Int) (message : String) :
      Carries (.command code message) (some ⟨code, message, none⟩)
  | write (fault : WriteFault) :
      Carries (.write fault) (some ⟨fault.code, fault.message, fault.details⟩)
  | writeConcern (fault : ConcernFault) :
      Carries (.writeConcern fault) (some ⟨fault.code, fault.message, none⟩)
  | firstFault (fault : WriteFault) (others : List WriteFault) (concern : Option ConcernFault) :
      Carries (.insertMany (fault :: others) concern)
        (some ⟨fault.code, fault.message, fault.details⟩)
  | concern (fault : ConcernFault) :
      Carries (.insertMany [] (some fault)) (some ⟨fault.code, fault.message, none⟩)
  | nothing : Carries (.insertMany [] none) none

/-! ## The members of an info -/

namespace FailureInfo

/-- The codes that have a name. -/
def namedCodes : List (Int × String) :=
  [(11000, "DuplicateKey"), (11001, "DuplicateKey"), (13, "Unauthorized"),
    (18, "AuthenticationFailed"), (26, "NamespaceNotFound"), (50, "MaxTimeMSExpired"),
    (59, "CommandNotFound"), (121, "DocumentValidationFailure")]

/-- The members show the report, and a part that is absent has no member. -/
structure Says (members : Entries Json) (report : Option Report) : Prop where
  names : (Entries.keys members).Sublist ["type", "code", "name", "message", "key"]
  type : ∃ text, Entries.find? members "type" = some (.str text)
  code : Entries.find? members "code" = report.map fun r => .int r.code
  message : Entries.find? members "message" = report.map fun r => .str r.message
  name : ∀ v, Entries.find? members "name" = some v ↔
    ∃ r text, report = some r ∧ (r.code, text) ∈ namedCodes ∧ v = .str text
  key : ∀ v, Entries.find? members "key" = some v ↔
    ∃ r key, report = some r ∧ r.HasKey key ∧ v = .obj (Bson.reportedFields key)

theorem codeName?_eq_some_iff {code : Int} {text : String} :
    codeName? code = some text ↔ (code, text) ∈ namedCodes := by
  constructor
  · intro h
    unfold codeName? at h
    split_ifs at h with hduplicate
    · obtain rfl := Option.some.inj h
      obtain rfl | rfl := hduplicate
      · decide
      · decide
    -- each other name belongs to a single code
    all_goals
      obtain rfl := Option.some.inj h
      subst code
      decide
  · intro h
    have hall : ∀ e ∈ namedCodes, codeName? e.1 = some e.2 := by decide
    exact hall (code, text) h

theorem duplicateKey_eq_some_iff {report : Report} {key : Document} :
    duplicateKey report.details = some key ↔ report.HasKey key := by
  unfold Report.HasKey
  cases report.details with
  | none => simp [duplicateKey]
  | some fields =>
    simp only [duplicateKey, Option.bind_eq_bind, Option.bind_some, Option.some.injEq,
      exists_eq_left']
    cases hvalue : Entries.find? fields "keyValue" with
    | none =>
      cases hpattern : Entries.find? fields "keyPattern" with
      | none => simp
      | some b => cases b <;> simp
    | some b => cases b <;> simp

/-- The members of the object that an info is written as. -/
def members (info : FailureInfo) : Entries Json :=
  member? "type" (info.type.map .str) ++ member? "code" (info.code.map .int) ++
    member? "name" (info.name.map .str) ++ member? "message" (info.message.map .str) ++
    member? "key" (info.key.map fun key => .obj (Bson.reportedFields key))

theorem find?_member? (name : String) (value : Option Json) (key : String) :
    Entries.find? (member? name value) key = if name = key then value else none := by
  cases value with
  | none => simp [member?, Entries.find?]
  | some v => simp [member?, Entries.find?]

theorem find?_members (info : FailureInfo) (name : String) :
    Entries.find? info.members name =
      if name = "type" then info.type.map .str
      else if name = "code" then info.code.map .int
      else if name = "name" then info.name.map .str
      else if name = "message" then info.message.map .str
      else if name = "key" then info.key.map fun key => .obj (Bson.reportedFields key)
      else none := by
  simp only [members, Entries.find?_append, find?_member?, eq_comm (b := name)]
  -- at most one of the names is the one looked for
  split_ifs <;> simp_all

theorem keys_member?_sublist (name : String) (value : Option Json) :
    (Entries.keys (member? name value)).Sublist [name] := by
  cases value with
  | none => exact List.nil_sublist _
  | some v => exact List.Sublist.refl _

theorem keys_members_sublist (info : FailureInfo) :
    (Entries.keys info.members).Sublist ["type", "code", "name", "message", "key"] := by
  simp only [members, Entries.keys, List.map_append]
  exact ((((keys_member?_sublist "type" _).append (keys_member?_sublist "code" _)).append
    (keys_member?_sublist "name" _)).append (keys_member?_sublist "message" _)).append
      (keys_member?_sublist "key" _)

theorem mem_member? {name : String} {value : Option Json} {e : String × Json}
    (h : e ∈ member? name value) : value = some e.2 := by
  cases value with
  | none => cases h
  | some v => rw [List.mem_singleton.mp h]

/-- An info is well-formed when its key has no name twice. -/
theorem wellFormed_members {info : FailureInfo}
    (hkey : ∀ key, info.key = some key → (Bson.document key).DistinctNames) :
    (Json.obj info.members).WellFormed := by
  have hnames : ["type", "code", "name", "message", "key"].Nodup := by decide
  refine .obj (info.keys_members_sublist.nodup hnames) fun e he => ?_
  simp only [members, List.mem_append] at he
  obtain (((he | he) | he) | he) | he := he
  all_goals
    obtain ⟨part, hpart, hvalue⟩ := Option.map_eq_some_iff.mp (mem_member? he)
    rw [← hvalue]
  · exact .str part
  · exact .int part
  · exact .str part
  · exact .str part
  · exact (hkey part hpart).wellFormed_reported

/-- An info with these parts says what the report says. -/
theorem says_members {info : FailureInfo} {report : Option Report} {text : String}
    (htype : info.type = some text) (hcode : info.code = report.map Report.code)
    (hname : info.name = report.bind fun r => codeName? r.code)
    (hmessage : info.message = report.map Report.message)
    (hkey : info.key = report.bind fun r => duplicateKey r.details) : Says info.members report where
  names := info.keys_members_sublist
  type := ⟨text, by simp [find?_members, htype]⟩
  code := by simp [find?_members, hcode, Function.comp_def]
  message := by simp [find?_members, hmessage, Function.comp_def]
  name := by
    intro v
    have hfound : Entries.find? info.members "name" = info.name.map .str := by
      simp [find?_members]
    rw [hfound, hname]
    cases report with
    | none => simp
    | some r =>
      simp only [Option.bind_some, Option.map_eq_some_iff, codeName?_eq_some_iff,
        Option.some.injEq, exists_and_left, exists_eq_left']
      exact exists_congr fun _ => and_congr_right fun _ => eq_comm
  key := by
    intro v
    have hfound : Entries.find? info.members "key" =
        info.key.map fun key => .obj (Bson.reportedFields key) := by
      simp [find?_members]
    rw [hfound, hkey]
    cases report with
    | none => simp
    | some r =>
      simp only [Option.bind_some, Option.map_eq_some_iff, duplicateKey_eq_some_iff,
        Option.some.injEq, exists_and_left, exists_eq_left']
      exact exists_congr fun _ => and_congr_right fun _ => eq_comm

end FailureInfo

/-! ## The two texts -/

namespace BackendFailure

variable {failure : BackendFailure} {report : Option Report}

/-- The parts of the info are those of the report. -/
theorem Carries.info_parts (h : failure.Carries report) :
    (∃ text, failure.info.type = some text) ∧ failure.info.code = report.map Report.code ∧
      failure.info.name = (report.bind fun r => FailureInfo.codeName? r.code) ∧
      failure.info.message = report.map Report.message ∧
      failure.info.key = report.bind fun r => FailureInfo.duplicateKey r.details := by
  cases h with
  | command | write | writeConcern | firstFault | concern | nothing =>
    exact ⟨⟨_, rfl⟩, rfl, rfl, rfl, rfl⟩

theorem Carries.says (h : failure.Carries report) :
    FailureInfo.Says failure.info.members report := by
  obtain ⟨⟨text, htype⟩, hcode, hname, hmessage, hkey⟩ := h.info_parts
  exact FailureInfo.says_members htype hcode hname hmessage hkey

/-- The key in the info comes from the details, so it has no name twice if they have none. -/
theorem Carries.distinctNames_key (h : failure.Carries report)
    (hnames : ∀ r fields, report = some r → r.details = some fields →
      (Bson.document fields).DistinctNames) {key : Document} (hkey : failure.info.key = some key) :
    (Bson.document key).DistinctNames := by
  obtain ⟨-, -, -, -, hparts⟩ := h.info_parts
  rw [hparts, Option.bind_eq_some_iff] at hkey
  obtain ⟨r, hreport, hduplicate⟩ := hkey
  obtain ⟨fields, hdetails, hfound⟩ := FailureInfo.duplicateKey_eq_some_iff.mp hduplicate
  have hfields := hnames r fields hreport hdetails
  obtain hvalue | ⟨-, hpattern⟩ := hfound
  · exact hfields.member (Entries.mem_of_find? hvalue)
  · exact hfields.member (Entries.mem_of_find? hpattern)

/-- The text of a failed command, write or insert and the pretty text of its info are valid JSON and
    state the same object, one of them in an object of its own: it says what the report says, and
    parts that are absent are left out. -/
theorem texts_state_info (h : failure.Carries report)
    (hnames : ∀ r fields, report = some r → r.details = some fields →
      (Bson.document fields).DistinctNames) :
    ∃ members, FailureInfo.Says members report ∧
      (∀ v, Json.States (Error.backend failure).message.toList v ↔
        v = .obj [("backend_error", .obj members)]) ∧
      ∀ v, Json.States failure.info.text.toList v ↔ v = .obj members := by
  have hmembers : (Json.obj failure.info.members).WellFormed :=
    FailureInfo.wellFormed_members fun _ => h.distinctNames_key hnames
  have hcompact : (Error.backend failure).message =
      (Bson.wrap "backend_error" (.obj failure.info.members)).compact := rfl
  have hpretty : failure.info.text = (Json.obj failure.info.members).pretty := rfl
  refine ⟨failure.info.members, h.says, fun v => ?_, fun v => ?_⟩
  · rw [hcompact]
    exact Json.states_compact_iff (Bson.wellFormed_wrap hmembers)
  · rw [hpretty]
    exact Json.states_pretty_iff hmembers

/-- Two writes of one insert have failed, and the details of the first one hold a pattern only. -/
theorem texts_state_info_of_two_faults :
    let details : Document := [("keyPattern", .document [("price", .double (.finite
      ⟨false, 1019, 2702159776422298⟩)), ("tags", .array [.string "\u00e9\u0001", .null])])]
    let first : WriteFault := ⟨11000, "duplicate \"key\"\n", some details⟩
    let failure : BackendFailure := .insertMany [first, ⟨121, "", none⟩] (some ⟨64, "late"⟩)
    let report : Option Report := some ⟨11000, "duplicate \"key\"\n", some details⟩
    failure.Carries report ∧
      (∀ r fields, report = some r → r.details = some fields →
        (Bson.document fields).DistinctNames) ∧
      ∃ members, FailureInfo.Says members report ∧
        (∀ v, Json.States (Error.backend failure).message.toList v ↔
          v = .obj [("backend_error", .obj members)]) ∧
        ∀ v, Json.States failure.info.text.toList v ↔ v = .obj members := by
  intro details first failure report
  have hcarries : failure.Carries report := .firstFault first _ _
  have hnames : ∀ r fields, report = some r → r.details = some fields →
      (Bson.document fields).DistinctNames := by
    intro r fields hreport hdetails
    obtain rfl := Option.some.inj hreport
    obtain rfl := Option.some.inj hdetails
    have hitems : (Bson.array [.string "\u00e9\u0001", .null]).DistinctNames :=
      .array (List.forall_mem_cons.mpr ⟨.single id, List.forall_mem_singleton.mpr (.single id)⟩)
    have hkey : (Bson.document [("price", .double (.finite ⟨false, 1019, 2702159776422298⟩)),
        ("tags", .array [.string "\u00e9\u0001", .null])]).DistinctNames :=
      .document (by decide)
        (List.forall_mem_cons.mpr ⟨.single id, List.forall_mem_singleton.mpr hitems⟩)
    exact .document (by decide) (List.forall_mem_singleton.mpr hkey)
  exact ⟨hcarries, hnames, texts_state_info hcarries hnames⟩

end BackendFailure

end ShellQuery
