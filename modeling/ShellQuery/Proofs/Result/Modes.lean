import ShellQuery.Proofs.Result.Passes

/-!
# The narrow and the broad mode

Every wrapper of the narrow mode is one of the broad mode.  So the broad pass leaves nothing for
the narrow one, and it does not matter whether the narrow pass has been made before it, as long as
values are wrapped as the store writes them: an object id holds a text, and an integer of 64 bits a
text or a number.  Then no object becomes a wrapper when what stands in it is replaced.

The main statement is `normalize_absorbs`.
-/

namespace ShellQuery.Json

variable {mode mode' : NormalizeMode} {v w held inner : Json} {entries : Entries Json}
  {name : String} {place : Place}

/-! ## Values that are wrapped as the store writes them -/

/-- The value is a text or a number. -/
def IsTextOrNumber (v : Json) : Prop :=
  (∃ s, v = .str s) ∨ (∃ i, v = .int i) ∨ ∃ d, v = .float d

/-- Wherever an object has `$oid` as its one property, that is a text, and wherever it has
    `$numberLong`, that is a text or a number. -/
structure WellWrapped (v : Json) : Prop where
  id : ∀ place inner, v.At place (.obj [("$oid", inner)]) → ∃ s, inner = .str s
  long : ∀ place inner, v.At place (.obj [("$numberLong", inner)]) → inner.IsTextOrNumber

namespace WellWrapped

theorem items {items : List Json} (h : WellWrapped (.arr items)) : ∀ v ∈ items, WellWrapped v := by
  intro v hv
  obtain ⟨index, hindex⟩ := List.mem_iff_getElem?.mp hv
  exact ⟨fun _ inner hat => h.id _ inner (.item hindex hat),
    fun _ inner hat => h.long _ inner (.item hindex hat)⟩

theorem property (h : WellWrapped (.obj entries)) (hmem : (name, v) ∈ entries) : WellWrapped v :=
  ⟨fun _ inner hat => h.id _ inner (.field hmem hat),
    fun _ inner hat => h.long _ inner (.field hmem hat)⟩

theorem of_forall_ne (harr : ∀ items, v ≠ .arr items) (hobj : ∀ entries, v ≠ .obj entries) :
    WellWrapped v := by
  constructor
  all_goals
    intro place inner hat
    cases hat with
    | here => exact absurd rfl (hobj _)
    | field => exact absurd rfl (hobj _)
    | item => exact absurd rfl (harr _)

theorem of_properties (hid : ∀ inner, entries = [("$oid", inner)] → ∃ s, inner = .str s)
    (hlong : ∀ inner, entries = [("$numberLong", inner)] → inner.IsTextOrNumber)
    (h : ∀ e ∈ entries, WellWrapped e.2) : WellWrapped (.obj entries) := by
  constructor
  · intro place inner hat
    cases hat with
    | here => exact hid inner rfl
    | field hmem hat => exact (h _ hmem).id _ inner hat
  · intro place inner hat
    cases hat with
    | here => exact hlong inner rfl
    | field hmem hat => exact (h _ hmem).long _ inner hat

/-- What stands in a wrapper has no parts. -/
theorem forall_ne (h : WellWrapped (.obj [(name, inner)]))
    (hname : name = "$oid" ∨ name = "$numberLong") :
    (∀ items, inner ≠ .arr items) ∧ ∀ entries, inner ≠ .obj entries := by
  have hinner : inner.IsTextOrNumber := by
    obtain rfl | rfl := hname
    · exact .inl (h.id [] inner (.here _))
    · exact h.long [] inner (.here _)
  obtain ⟨s, rfl⟩ | ⟨i, rfl⟩ | ⟨d, rfl⟩ := hinner <;> exact ⟨nofun, nofun⟩

/-- What takes the place of a wrapper has no parts. -/
theorem unwrapped_held (h : WellWrapped v) (hv : Wraps mode v held) : Unwrapped mode' held := by
  obtain ⟨tag, inner, rfl⟩ := hv.exists_entry
  obtain rfl | ⟨s, rfl⟩ := hv.inner_cases
  · obtain ⟨harr, hobj⟩ := h.forall_ne (IsWrapper.name_of_mem ⟨_, hv⟩ List.mem_cons_self)
    exact unwrapped_of_forall_ne harr hobj
  · cases hv with
    | id hv => cases hv <;> exact unwrapped_of_forall_ne nofun nofun
    | longText => exact unwrapped_of_forall_ne nofun nofun

/-! ## Nothing is left over -/

theorem not_nests (h : WellWrapped v) : ¬ Nests mode v := by
  intro hnests
  cases hnests with
  | held hv hat hw => exact h.unwrapped_held hv _ _ hat hw
  | formed hinner hw =>
    obtain ⟨tag, inner', rfl⟩ := hinner.exists_entry
    exact (h.forall_ne (hw.name_of_mem List.mem_cons_self)).2 _ rfl

theorem of_kept (h : WellWrapped v) (hkept : Kept mode v place w) : WellWrapped w := by
  induction hkept with
  | here => exact h
  | field hmem _ _ ih => exact ih (h.property hmem)
  | item hitem _ ih => exact ih (h.items _ (List.mem_of_getElem? hitem))

theorem flat (h : WellWrapped v) : Flat mode v :=
  fun _ _ hkept => (h.of_kept hkept).not_nests

end WellWrapped

/-! ## Wrappers of both modes -/

theorem Wraps.broad (h : Wraps .idOnly v held) : Wraps .allSpecialFields v held := by
  obtain ⟨⟨s⟩⟩ := h
  exact .id (.any _)

theorem IsWrapper.broad (h : IsWrapper .idOnly v) : IsWrapper .allSpecialFields v := by
  obtain ⟨held, h⟩ := h
  exact ⟨held, h.broad⟩

theorem Unwrapped.narrow (h : Unwrapped .allSpecialFields v) : Unwrapped .idOnly v :=
  fun place w hat hw => h place w hat hw.broad

theorem wrapsId_iff_wraps :
    WrapsId mode v held ↔ Wraps mode v held ∧ ∃ inner, v = .obj [("$oid", inner)] := by
  constructor
  · intro h
    exact ⟨.id h, h.exists_inner⟩
  · rintro ⟨h, inner, hv⟩
    cases h with
    | id h => exact h
    | long | longText => simp at hv

/-- Modes that replace the same wrappers in a value give the same result. -/
theorem normalize_congr
    (h : ∀ place w held, v.At place w → (Wraps mode w held ↔ Wraps mode' w held)) :
    v.normalize mode = v.normalize mode' := by
  induction v using Json.induction with
  | null | bool | int | float | str => rfl
  | arr items ih =>
    rw [normalize, normalize, normalizeItems_eq_map, normalizeItems_eq_map]
    refine congrArg arr (List.map_congr_left fun v hv => ih v hv ?_)
    intro place w held hat
    obtain ⟨index, hindex⟩ := List.mem_iff_getElem?.mp hv
    exact h _ w held (.item hindex hat)
  | obj entries ih =>
    by_cases hobj : IsWrapper mode (.obj entries)
    · obtain ⟨held, hheld⟩ := hobj
      rw [hheld.normalize, ((h [] _ held (.here _)).mp hheld).normalize]
    · have hobj' : ¬ IsWrapper mode' (.obj entries) := by
        rintro ⟨held, hheld⟩
        exact hobj ⟨held, (h [] _ held (.here _)).mpr hheld⟩
      have hfields : normalizeFields mode entries = normalizeFields mode' entries := by
        rw [normalizeFields_eq_map, normalizeFields_eq_map]
        refine List.map_congr_left fun e he => ?_
        rw [ih e he fun place w held hat => h _ w held (.field he hat)]
      -- the value under `_id` stands one place further in
      have hprimary : primaryId? mode entries = primaryId? mode' entries := by
        ext id
        rw [primaryId?_eq_some_iff, primaryId?_eq_some_iff]
        refine exists_congr fun w => and_congr_right fun hfind => ?_
        rw [wrapsId_iff_wraps, wrapsId_iff_wraps,
          h _ w id (.field (Entries.mem_of_find? hfind) (.here w))]
      rw [normalize_obj_of_unwrapped (unwrapEntries?_eq_none_iff.mpr hobj),
        normalize_obj_of_unwrapped (unwrapEntries?_eq_none_iff.mpr hobj'), hfields, hprimary]

/-! ## The broad pass behind the narrow one -/

namespace WellWrapped

/-- An object with the name of a wrapper that is none stays as it is. -/
theorem normalize_singleton (h : WellWrapped (.obj [(name, inner)]))
    (hname : name = "$oid" ∨ name = "$numberLong")
    (hnot : ¬ IsWrapper mode (.obj [(name, inner)])) :
    (obj [(name, inner)]).normalize mode = .obj [(name, inner)] := by
  obtain ⟨harr, hobj⟩ := h.forall_ne hname
  refine Unwrapped.normalize (unwrapped_obj_iff.mpr ⟨hnot, ?_⟩)
  exact List.forall_mem_singleton.mpr (unwrapped_of_forall_ne harr hobj)

/-- What the narrow pass leaves as a wrapper of the broad mode was one before. -/
theorem normalize_eq_self_of_isWrapper (hwf : v.WellFormed) (h : WellWrapped v)
    (hw : IsWrapper .allSpecialFields (v.normalize .idOnly)) : v.normalize .idOnly = v := by
  obtain ⟨held, hheld⟩ := hw
  obtain ⟨tag, inner, heq⟩ := hheld.exists_entry
  have htag : tag = "$oid" ∨ tag = "$numberLong" :=
    IsWrapper.name_of_mem ⟨held, heq ▸ hheld⟩ List.mem_cons_self
  cases v with
  | null | bool | int | float | str => rfl
  | arr items =>
    rw [normalize] at heq
    cases heq
  | obj entries =>
    by_cases hobj : IsWrapper .idOnly (.obj entries)
    · -- the text of an object id is no wrapper
      obtain ⟨id, hid⟩ := hobj
      rw [hid.normalize] at hheld
      exact absurd ⟨held, hheld⟩ (h.unwrapped_held hid [] _ (.here _))
    · rw [normalize_obj_of_unwrapped (unwrapEntries?_eq_none_iff.mpr hobj)] at heq
      have hentries := Json.obj.inj heq
      cases hprimary : primaryId? .idOnly entries with
      | some id =>
        -- the one property would be the id that has moved
        rw [hprimary] at hentries
        have hperm := perm_renameId (keys_normalizeFields .idOnly entries ▸ hwf.nodup_keys) id
        have hid := hperm.mem_iff.mpr List.mem_cons_self
        rw [hentries, List.mem_singleton] at hid
        cases hid
        simp at htag
      | none =>
        rw [hprimary, renameId, normalizeFields_eq_map, List.map_eq_singleton_iff] at hentries
        obtain ⟨⟨name, value⟩, rfl, hentry⟩ := hentries
        cases hentry
        exact h.normalize_singleton htag hobj

/-- The id that moves in the narrow pass is the one that moves in the broad pass. -/
theorem primaryId?_broad (h : WellWrapped (.obj entries)) :
    primaryId? .allSpecialFields entries = primaryId? .idOnly entries := by
  ext id
  rw [primaryId?_eq_some_iff, primaryId?_eq_some_iff]
  refine exists_congr fun w => and_congr_right fun hfind => ⟨fun hw => ?_, fun hw => ?_⟩
  · cases hw with
    | any =>
      obtain ⟨s, rfl⟩ := (h.property (Entries.mem_of_find? hfind)).id [] id (.here _)
      exact .text s
  · cases hw with
    | text s => exact .any _

/-- The narrow pass leaves no id to move. -/
theorem primaryId?_normalizeFields (hwf : (Json.obj entries).WellFormed)
    (h : WellWrapped (.obj entries)) (hprimary : primaryId? .idOnly entries = none) :
    primaryId? .allSpecialFields (normalizeFields .idOnly entries) = none := by
  rw [Option.eq_none_iff_forall_ne_some]
  intro id hid
  obtain ⟨w', hfind', hw'⟩ := primaryId?_eq_some_iff.mp hid
  rw [normalizeFields_eq_map, Entries.find?_map fun _ => Json.normalize .idOnly,
    Option.map_eq_some_iff] at hfind'
  obtain ⟨w, hfind, rfl⟩ := hfind'
  have hmem := Entries.mem_of_find? hfind
  have hsame := (h.property hmem).normalize_eq_self_of_isWrapper
    ((wellFormed_obj_iff.mp hwf).2 _ hmem) ⟨id, .id hw'⟩
  rw [hsame] at hw'
  rw [← h.primaryId?_broad, primaryId?_eq_some_iff.mpr ⟨w, hfind, hw'⟩] at hprimary
  cases hprimary

/-- An id that has moved is no wrapper, and no other one is left to move. -/
theorem renameId_normalizeFields {id : Json} (hnodup : (Entries.keys entries).Nodup)
    (h : WellWrapped (.obj entries)) (hprimary : primaryId? .idOnly entries = some id) :
    renameId
        (primaryId? .allSpecialFields (renameId (some id) (normalizeFields .idOnly entries)))
        (normalizeFields .allSpecialFields
          (renameId (some id) (normalizeFields .idOnly entries))) =
      renameId (some id)
        (normalizeFields .allSpecialFields (normalizeFields .idOnly entries)) := by
  obtain ⟨w, hfind, hw⟩ := primaryId?_eq_some_iff.mp hprimary
  have hid : id.normalize .allSpecialFields = id :=
    ((h.property (Entries.mem_of_find? hfind)).unwrapped_held (.id hw)).normalize
  have hmoved : primaryId? .allSpecialFields
      (renameId (some id) (normalizeFields .idOnly entries)) = none := by
    have hgone : "_id" ∉ Entries.keys (Entries.erase (normalizeFields .idOnly entries) "_id") :=
      Entries.not_mem_keys_erase (keys_normalizeFields .idOnly entries ▸ hnodup)
    rw [primaryId?, renameId, Entries.find?_put_of_ne _ _ (by decide),
      Entries.find?_eq_none_iff.mpr hgone, Option.bind_none]
  rw [hmoved, renameId, renameId, renameId, normalizeFields_eq_map, Entries.map_put fun _ =>
    Json.normalize .allSpecialFields, Entries.map_erase fun _ => Json.normalize .allSpecialFields,
    hid, normalizeFields_eq_map .allSpecialFields]

/-- A wrapper of both modes holds the same, and the wrapper of an integer is left to the broad
    pass. -/
theorem normalize_broad_of_isWrapper (h : WellWrapped v) (hv : IsWrapper .allSpecialFields v) :
    (v.normalize .idOnly).normalize .allSpecialFields = v.normalize .allSpecialFields := by
  by_cases hnarrow : IsWrapper .idOnly v
  · obtain ⟨id, hid⟩ := hnarrow
    rw [hid.normalize, hid.broad.normalize, (h.unwrapped_held hid).normalize]
  · obtain ⟨held, hheld⟩ := hv
    obtain ⟨tag, inner, rfl⟩ := hheld.exists_entry
    have htag := IsWrapper.name_of_mem ⟨held, hheld⟩ List.mem_cons_self
    rw [h.normalize_singleton htag hnarrow]

/-- The broad pass makes no difference between a value and what the narrow pass makes of it. -/
theorem normalize_broad (hwf : v.WellFormed) (h : WellWrapped v) :
    (v.normalize .idOnly).normalize .allSpecialFields = v.normalize .allSpecialFields := by
  induction hwf with
  | null | bool | int | float | str => rfl
  | arr _ ih =>
    simp only [normalize, normalizeItems_eq_map, List.map_map]
    exact congrArg arr (List.map_congr_left fun v hv => ih v hv (h.items v hv))
  | @obj entries hnodup hvalues ih =>
    have hwf : (Json.obj entries).WellFormed := .obj hnodup hvalues
    by_cases hobj : IsWrapper .allSpecialFields (.obj entries)
    · exact h.normalize_broad_of_isWrapper hobj
    · have hnarrow : ¬ IsWrapper .idOnly (.obj entries) := fun hw => hobj hw.broad
      have hout : ¬ IsWrapper .allSpecialFields ((obj entries).normalize .idOnly) := by
        intro hw
        rw [h.normalize_eq_self_of_isWrapper hwf hw] at hw
        exact hobj hw
      have hfields : normalizeFields .allSpecialFields (normalizeFields .idOnly entries) =
          normalizeFields .allSpecialFields entries := by
        simp only [normalizeFields_eq_map, List.map_map]
        refine List.map_congr_left fun e he => ?_
        rw [Function.comp_apply, ih e he (h.property he)]
      rw [normalize_obj_of_unwrapped (unwrapEntries?_eq_none_iff.mpr hnarrow)] at hout ⊢
      rw [normalize_obj_of_unwrapped (unwrapEntries?_eq_none_iff.mpr hout),
        normalize_obj_of_unwrapped (unwrapEntries?_eq_none_iff.mpr hobj), h.primaryId?_broad]
      cases hprimary : primaryId? .idOnly entries with
      | none =>
        simp only [renameId, h.primaryId?_normalizeFields hwf hprimary, hfields]
      | some id =>
        rw [h.renameId_normalizeFields hnodup hprimary, hfields]

end WellWrapped

/-! ## Main result -/

/-- What stands in an object is the object or stands in a value of it. -/
theorem At.obj_cases (h : (Json.obj entries).At place v) :
    v = .obj entries ∨ ∃ e ∈ entries, ∃ place, e.2.At place v := by
  cases h with
  | here => exact .inl rfl
  | field hmem hat => exact .inr ⟨_, hmem, _, hat⟩

/-- Where values are wrapped as the store writes them, the broad pass gives the same result with the
    narrow pass before it, behind it and alone.  The narrow pass gives that result as well when no
    integer stands in a wrapper. -/
theorem normalize_absorbs {v : Json} (hwf : v.WellFormed) (hv : WellWrapped v) :
    (v.normalize .idOnly).normalize .allSpecialFields = v.normalize .allSpecialFields ∧
    (v.normalize .allSpecialFields).normalize .idOnly = v.normalize .allSpecialFields ∧
    ((∀ place inner, v.At place (.obj [("$numberLong", inner)]) →
        ¬ IsWrapper .allSpecialFields (.obj [("$numberLong", inner)])) →
      v.normalize .idOnly = v.normalize .allSpecialFields) := by
  refine ⟨hv.normalize_broad hwf, ?_, fun hlong => normalize_congr fun place w held hat => ?_⟩
  · have hleft : Unwrapped .allSpecialFields (v.normalize .allSpecialFields) :=
      (unwrapped_normalize_iff hwf).mpr hv.flat
    exact hleft.narrow.normalize
  · refine ⟨Wraps.broad, fun hw => ?_⟩
    cases hw with
    | id hw =>
      obtain ⟨held⟩ := hw
      obtain ⟨s, rfl⟩ := hv.id place held hat
      exact .id (.text s)
    | long hlow hhigh => exact absurd ⟨_, .long hlow hhigh⟩ (hlong place _ hat)
    | longText htext hlow hhigh => exact absurd ⟨_, .longText htext hlow hhigh⟩ (hlong place _ hat)

/-- An id that takes the place of another one beside an integer, and a text that is no integer. -/
theorem normalize_absorbs_beside_long :
    let v : Json := .obj [("_id", .obj [("$oid", .str "a")]), ("id", .str "b"),
      ("n", .obj [("$numberLong", .str "5")])]
    let w : Json := .obj [("ref", .obj [("$oid", .str "a")]),
      ("n", .obj [("$numberLong", .str "x")])]
    (v.WellFormed ∧ WellWrapped v ∧
      (v.normalize .idOnly).normalize .allSpecialFields = .obj [("id", .str "a"), ("n", .int 5)] ∧
      (v.normalize .allSpecialFields).normalize .idOnly = .obj [("id", .str "a"), ("n", .int 5)]) ∧
    w.WellFormed ∧ WellWrapped w ∧
      (∀ place inner, w.At place (.obj [("$numberLong", inner)]) →
        ¬ IsWrapper .allSpecialFields (.obj [("$numberLong", inner)])) ∧
      w.normalize .idOnly = w.normalize .allSpecialFields := by
  intro v w
  have hv : v.WellFormed := by
    simp [v, wellFormed_obj_iff, Entries.keys, WellFormed.str]
  have hw : w.WellFormed := by
    simp [w, wellFormed_obj_iff, Entries.keys, WellFormed.str]
  have hall : v.normalize .allSpecialFields = .obj [("id", .str "a"), ("n", .int 5)] := by rfl
  have htext : ∀ s, WellWrapped (.str s) := fun s => .of_forall_ne (by simp) (by simp)
  have hid : ∀ s, WellWrapped (.obj [("$oid", .str s)]) := fun s =>
    .of_properties (by simp) (by simp) (by simp [htext])
  have hlong : ∀ s, WellWrapped (.obj [("$numberLong", .str s)]) := fun s =>
    .of_properties (by simp) (by simp [IsTextOrNumber]) (by simp [htext])
  have hvw : WellWrapped v := by
    refine .of_properties (by simp) (by simp) ?_
    simp only [List.forall_mem_cons, List.not_mem_nil, false_implies, implies_true, and_true]
    exact ⟨hid "a", htext "b", hlong "5"⟩
  have hww : WellWrapped w := by
    refine .of_properties (by simp) (by simp) ?_
    simp only [List.forall_mem_cons, List.not_mem_nil, false_implies, implies_true, and_true]
    exact ⟨hid "a", hlong "x"⟩
  have hnone : ∀ place inner, w.At place (.obj [("$numberLong", inner)]) →
      ¬ IsWrapper .allSpecialFields (.obj [("$numberLong", inner)]) := by
    intro place inner hat
    obtain heq | ⟨e, he, place, hat⟩ := hat.obj_cases
    · simp at heq
    · simp only [List.mem_cons, List.not_mem_nil, or_false] at he
      obtain rfl | rfl := he
      · obtain heq | ⟨e, he, place, hat⟩ := hat.obj_cases
        · simp at heq
        · cases List.mem_singleton.mp he
          cases hat
      · obtain heq | ⟨e, he, place, hat⟩ := hat.obj_cases
        · cases heq
          exact unwrapEntries?_eq_none_iff.mp rfl
        · cases List.mem_singleton.mp he
          cases hat
  obtain ⟨hbroad, hnarrow, -⟩ := normalize_absorbs hv hvw
  obtain ⟨-, -, hsame⟩ := normalize_absorbs hw hww
  exact ⟨⟨hv, hvw, hbroad.trans hall, hnarrow.trans hall⟩, hw, hww, hnone, hsame hnone⟩

end ShellQuery.Json
