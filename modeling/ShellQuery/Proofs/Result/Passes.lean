import ShellQuery.Proofs.Json.WellFormed
import ShellQuery.Proofs.Result.Wrappers

/-!
# More than one pass

What a wrapper holds is taken as it stands, and an object is looked at before its properties are
replaced.  So a wrapper inside a wrapper is left over: the outer one is replaced in the broad mode,
and the inner one where only that is a wrapper.  `Nests` says which objects are meant, and one pass
is enough exactly when the walk keeps none of them.  Each further pass that changes anything takes
away at least one part, so passes come to an end.

The main statement is `normalize_normalize_eq_iff`.
-/

namespace ShellQuery.Json

variable {mode : NormalizeMode} {v w held inner : Json} {items : List Json} {entries : Entries Json}
  {name : String} {place : Place}

/-! ## Wrappers in wrappers -/

/-- The value is a wrapper that holds another one, or an object that becomes a wrapper when its one
    property, a wrapper itself, is replaced. -/
inductive Nests (mode : NormalizeMode) : Json → Prop where
  | held {v held w : Json} {place : Place} (h : Wraps mode v held) (hat : held.At place w)
      (hw : IsWrapper mode w) : Nests mode v
  | formed {name : String} {inner held : Json} (h : Wraps mode inner held)
      (hw : IsWrapper mode (.obj [(name, held)])) : Nests mode (.obj [(name, inner)])

/-- The object has an object id under `_id`, in its wrapper. -/
def HasWrappedId (mode : NormalizeMode) (entries : Entries Json) : Prop :=
  ∃ v id, Entries.find? entries "_id" = some v ∧ WrapsId mode v id

/-- The value at a place that the walk does not lose: a property `id` is lost beside an object id
    that moves there. -/
inductive Kept (mode : NormalizeMode) : Json → Place → Json → Prop where
  | here (v : Json) : Kept mode v [] v
  | field {entries : List (String × Json)} {name : String} {place : Place} {v w : Json}
      (hmem : (name, v) ∈ entries) (hkept : name = "id" → ¬ HasWrappedId mode entries)
      (h : Kept mode v place w) : Kept mode (.obj entries) (.field name :: place) w
  | item {items : List Json} {index : Nat} {place : Place} {v w : Json}
      (hitem : items[index]? = some v) (h : Kept mode v place w) :
      Kept mode (.arr items) (.item index :: place) w

/-- The walk keeps no wrapper inside a wrapper. -/
def Flat (mode : NormalizeMode) (v : Json) : Prop :=
  ∀ place w, Kept mode v place w → ¬ Nests mode w

/-! ## The names of wrappers -/

theorem Nests.name_of_mem (h : Nests mode (.obj entries)) (hmem : (name, v) ∈ entries) :
    name = "$oid" ∨ name = "$numberLong" := by
  cases h with
  | held h => exact IsWrapper.name_of_mem ⟨_, h⟩ hmem
  | formed _ hw =>
    cases List.mem_singleton.mp hmem
    exact hw.name_of_mem List.mem_cons_self

theorem Nests.exists_entry (h : Nests mode v) : ∃ tag inner, v = .obj [(tag, inner)] := by
  cases h with
  | held h => exact h.exists_entry
  | formed => exact ⟨_, _, rfl⟩

/-! ## Values without wrappers in wrappers -/

theorem Nests.not_unwrapped (h : Nests mode v) : ¬ Unwrapped mode v := by
  intro hv
  cases h with
  | held h => exact hv [] _ (.here _) ⟨_, h⟩
  | formed h => exact hv _ _ (.field List.mem_cons_self (.here _)) ⟨_, h⟩

theorem Kept.unwrapped (h : Kept mode v place w) (hv : Unwrapped mode v) : Unwrapped mode w := by
  induction h with
  | here => exact hv
  | field hmem _ _ ih => exact ih ((unwrapped_obj_iff.mp hv).2 _ hmem)
  | item hitem _ ih => exact ih (unwrapped_arr_iff.mp hv _ (List.mem_of_getElem? hitem))

theorem Unwrapped.flat (h : Unwrapped mode v) : Flat mode v :=
  fun _ _ hkept hnests => hnests.not_unwrapped (hkept.unwrapped h)

theorem flat_arr_iff : Flat mode (.arr items) ↔ ∀ v ∈ items, Flat mode v := by
  constructor
  · intro h v hv place w hkept
    obtain ⟨index, hindex⟩ := List.mem_iff_getElem?.mp hv
    exact h _ w (.item hindex hkept)
  · intro h place w hkept
    cases hkept with
    | here =>
      intro hnests
      obtain ⟨tag, inner, heq⟩ := hnests.exists_entry
      cases heq
    | item hitem hkept => exact h _ (List.mem_of_getElem? hitem) _ w hkept

theorem flat_obj_iff :
    Flat mode (.obj entries) ↔ ¬ Nests mode (.obj entries) ∧
      ∀ e ∈ entries, (e.1 = "id" → ¬ HasWrappedId mode entries) → Flat mode e.2 := by
  constructor
  · intro h
    exact ⟨h [] _ (.here _), fun e he hlost place w hkept => h _ w (.field he hlost hkept)⟩
  · rintro ⟨hobj, h⟩ place w hkept
    cases hkept with
    | here => exact hobj
    | field hmem hlost hkept => exact h _ hmem hlost _ w hkept

/-! ## One pass -/

/-- What takes the place of a wrapper is what stands in it, or comes from a text. -/
theorem Wraps.inner_cases (h : Wraps mode (.obj [(name, inner)]) held) :
    inner = held ∨ ∃ s, inner = .str s := by
  cases h with
  | id h => cases h <;> exact .inl rfl
  | long => exact .inl rfl
  | longText => exact .inr ⟨_, rfl⟩

/-- A wrapper is flat when it holds no wrapper. -/
theorem Wraps.unwrapped_iff_flat (h : Wraps mode v held) : Unwrapped mode held ↔ Flat mode v := by
  constructor
  · intro hheld
    obtain ⟨tag, inner, rfl⟩ := h.exists_entry
    have hinner : Unwrapped mode inner := by
      obtain rfl | ⟨s, rfl⟩ := h.inner_cases
      · exact hheld
      · exact unwrapped_of_forall_ne nofun nofun
    refine flat_obj_iff.mpr ⟨fun hnests => ?_, List.forall_mem_singleton.mpr fun _ => hinner.flat⟩
    cases hnests with
    | held h' hat hw =>
      rw [← h'.normalize, h.normalize] at hat
      exact hheld _ _ hat hw
    | formed h' _ => exact hinner [] _ (.here _) ⟨_, h'⟩
  · intro hflat place w hat hw
    exact hflat [] _ (.here _) (.held h hat hw)

/-- A wrapper holds a value without parts, unless it holds any. -/
theorem Wraps.any_or_leaf (h : Wraps mode (.obj [(name, inner)]) held) :
    mode = .allSpecialFields ∧ name = "$oid" ∨
      (∀ items, inner ≠ .arr items) ∧ ∀ entries, inner ≠ .obj entries := by
  cases h with
  | id h =>
    cases h with
    | any => exact .inl ⟨rfl, rfl⟩
    | text => exact .inr ⟨nofun, nofun⟩
  | long | longText => exact .inr ⟨nofun, nofun⟩

/-- Only a wrapper is replaced by a value without parts. -/
theorem normalize_eq_self_of_forall_ne (hnot : ¬ IsWrapper mode v)
    (harr : ∀ items, v.normalize mode ≠ .arr items)
    (hobj : ∀ entries, v.normalize mode ≠ .obj entries) : v.normalize mode = v := by
  cases v with
  | null | bool | int | float | str => rfl
  | arr items => exact absurd rfl (harr _)
  | obj entries =>
    rw [normalize_obj_of_unwrapped (unwrapEntries?_eq_none_iff.mpr hnot)] at hobj
    exact absurd rfl (hobj _)

/-- An object with one property becomes a wrapper only by what the property held as a wrapper. -/
theorem isWrapper_singleton_iff (hnot : ¬ IsWrapper mode (.obj [(name, inner)])) :
    IsWrapper mode (.obj [(name, inner.normalize mode)]) ↔ Nests mode (.obj [(name, inner)]) := by
  constructor
  · intro hw
    by_cases hinner : IsWrapper mode inner
    · obtain ⟨held, hheld⟩ := hinner
      rw [hheld.normalize] at hw
      exact .formed hheld hw
    · -- the object would have been a wrapper before
      obtain ⟨held, hwraps⟩ := hw
      obtain ⟨rfl, rfl⟩ | ⟨harr, hobj⟩ := hwraps.any_or_leaf
      · exact absurd ⟨inner, .id (.any inner)⟩ hnot
      · rw [normalize_eq_self_of_forall_ne hinner harr hobj] at hwraps
        exact absurd ⟨held, hwraps⟩ hnot
  · intro hnests
    cases hnests with
    | held h => exact absurd ⟨_, h⟩ hnot
    | formed h hw =>
      rw [h.normalize]
      exact hw

theorem isWrapper_normalizeFields_iff (hnot : ¬ IsWrapper mode (.obj entries)) :
    IsWrapper mode (.obj (normalizeFields mode entries)) ↔ Nests mode (.obj entries) := by
  match entries with
  | [(name, inner)] => exact isWrapper_singleton_iff hnot
  | [] | _ :: _ :: _ =>
    -- wrappers have one property, and so have objects that become one
    refine iff_of_false ?_ ?_
    · rintro ⟨held, h⟩
      obtain ⟨tag, inner, heq⟩ := h.exists_entry
      simp [normalizeFields_eq_map] at heq
    · intro h
      obtain ⟨tag, inner, heq⟩ := h.exists_entry
      simp at heq

theorem hasWrappedId_iff : HasWrappedId mode entries ↔ ∃ id, primaryId? mode entries = some id := by
  simp only [HasWrappedId, primaryId?_eq_some_iff]
  exact exists_comm

/-- An object whose id moves is no wrapper, before and after, and its id and the properties beside
    it are what is left. -/
theorem unwrapped_renameId_iff {id : Json} (hnodup : (Entries.keys entries).Nodup)
    (hprimary : primaryId? mode entries = some id)
    (ih : ∀ e ∈ entries, Unwrapped mode (e.2.normalize mode) ↔ Flat mode e.2) :
    Unwrapped mode (.obj (renameId (some id) (normalizeFields mode entries))) ↔
      Flat mode (.obj entries) := by
  obtain ⟨wrapped, hfind, hwrapped⟩ := primaryId?_eq_some_iff.mp hprimary
  have hmem : ("_id", wrapped) ∈ entries := Entries.mem_of_find? hfind
  have hperm := perm_renameId (keys_normalizeFields mode entries ▸ hnodup) id
  -- neither side is a wrapper: one has a property `id`, the other a property `_id`
  have hout : ¬ IsWrapper mode (.obj (renameId (some id) (normalizeFields mode entries))) := by
    intro h
    have hname := h.name_of_mem (hperm.mem_iff.mpr List.mem_cons_self)
    simp at hname
  have hin : ¬ Nests mode (.obj entries) := by
    intro h
    have hname := h.name_of_mem hmem
    simp at hname
  have hparts : (∀ e ∈ renameId (some id) (normalizeFields mode entries), Unwrapped mode e.2) ↔
      Unwrapped mode id ∧ ∀ e ∈ besideId entries, Unwrapped mode (e.2.normalize mode) := by
    simp only [hperm.mem_iff, besideId_normalizeFields]
    rw [List.forall_mem_cons, normalizeFields_eq_map, List.forall_mem_map]
  have hid : Unwrapped mode id ↔ Flat mode wrapped := by
    rw [← ih _ hmem, (Wraps.id hwrapped).normalize]
  have hlost : HasWrappedId mode entries := hasWrappedId_iff.mpr ⟨id, hprimary⟩
  rw [unwrapped_obj_iff, flat_obj_iff, and_iff_right hout, and_iff_right hin, hparts]
  constructor
  · rintro ⟨hfirst, hrest⟩ e he hkept
    by_cases hname : e.1 = "_id"
    · -- no other property has the name
      obtain ⟨name, v⟩ := e
      subst hname
      rw [← Entries.find?_eq_some_iff hnodup, hfind] at he
      cases he
      exact hid.mp hfirst
    · have hbeside : e ∈ besideId entries :=
        mem_besideId_iff.mpr ⟨he, fun heq => hkept heq hlost, hname⟩
      exact (ih e he).mp (hrest e hbeside)
  · intro h
    refine ⟨hid.mpr (h _ hmem (by simp)), fun e hbeside => ?_⟩
    obtain ⟨he, hname, -⟩ := mem_besideId_iff.mp hbeside
    exact (ih e he).mpr (h e he fun heq => absurd heq hname)

/-- Nothing is left to replace exactly when no wrapper holds another one.  The induction is on the
    value, with the cases of the walk for an object. -/
theorem unwrapped_normalize_iff (hwf : v.WellFormed) :
    Unwrapped mode (v.normalize mode) ↔ Flat mode v := by
  induction hwf with
  | null | bool | int | float | str =>
    exact iff_of_true (unwrapped_of_forall_ne nofun nofun)
      (Unwrapped.flat (unwrapped_of_forall_ne nofun nofun))
  | arr _ ih =>
    rw [Json.normalize, normalizeItems_eq_map, unwrapped_arr_iff, flat_arr_iff, List.forall_mem_map]
    exact forall₂_congr ih
  | @obj entries hnodup _ ih =>
    by_cases hobj : IsWrapper mode (.obj entries)
    · obtain ⟨held, hheld⟩ := hobj
      rw [hheld.normalize]
      exact hheld.unwrapped_iff_flat
    · rw [normalize_obj_of_unwrapped (unwrapEntries?_eq_none_iff.mpr hobj)]
      cases hprimary : primaryId? mode entries with
      | some id => exact unwrapped_renameId_iff hnodup hprimary ih
      | none =>
        have hkept : ¬ HasWrappedId mode entries := by
          rw [hasWrappedId_iff, hprimary]
          rintro ⟨id, ⟨⟩⟩
        rw [renameId, unwrapped_obj_iff, flat_obj_iff, isWrapper_normalizeFields_iff hobj,
          normalizeFields_eq_map, List.forall_mem_map]
        refine and_congr_right fun _ => forall₂_congr fun e he => ?_
        rw [ih e he]
        exact ⟨fun h _ => h, fun h => h fun _ => hkept⟩

/-! ## Further passes -/

/-- Passes that change something come to an end, as each of them makes the value smaller. -/
theorem exists_passes (mode : NormalizeMode) (v : Json) :
    ∃ passes < v.size, Unwrapped mode ((Json.normalize mode)^[passes] v) := by
  induction hsize : v.size using Nat.strong_induction_on generalizing v with
  | _ n ih =>
    subst hsize
    obtain hdone | hlt := unwrapped_or_size_lt mode v
    · exact ⟨0, size_pos v, hdone⟩
    · obtain ⟨passes, hpasses, hdone⟩ := ih _ hlt _ rfl
      exact ⟨passes + 1, by omega, hdone⟩

/-! ## Main result -/

/-- A second pass changes nothing exactly when no wrapper that the walk keeps holds another one or
    is formed by one, and exactly when the first pass leaves no wrapper over.  Fewer passes than
    there are values in the value leave none over. -/
theorem normalize_normalize_eq_iff (mode : NormalizeMode) {v : Json} (hwf : v.WellFormed) :
    ((v.normalize mode).normalize mode = v.normalize mode ↔
      ∀ place w, Kept mode v place w → ¬ Nests mode w) ∧
    ((v.normalize mode).normalize mode = v.normalize mode ↔
      ∀ place w, (v.normalize mode).At place w → ¬ IsWrapper mode w) ∧
    ∃ passes < v.size, ∀ place w,
      Json.At ((Json.normalize mode)^[passes] v) place w → ¬ IsWrapper mode w := by
  have hpass : (v.normalize mode).normalize mode = v.normalize mode ↔
      Unwrapped mode (v.normalize mode) :=
    ⟨unwrapped_of_normalize_eq, Unwrapped.normalize⟩
  exact ⟨hpass.trans (unwrapped_normalize_iff hwf), hpass, exists_passes mode v⟩

/-- A wrapper in a wrapper does no harm under `id` beside an id that moves there. -/
theorem normalize_normalize_eq_iff_beside_id :
    let v : Json := .obj [("_id", .obj [("$oid", .str "a")]),
      ("id", .obj [("$oid", .obj [("$oid", .str "b")])])]
    v.WellFormed ∧
      v.At [.field "id"] (.obj [("$oid", .obj [("$oid", .str "b")])]) ∧
      Nests .idOnly (.obj [("$oid", .obj [("$oid", .str "b")])]) ∧
      (v.normalize .idOnly).normalize .idOnly = v.normalize .idOnly ∧
      (∀ place w, Kept .idOnly v place w → ¬ Nests .idOnly w) ∧
      ∀ place w, (v.normalize .idOnly).At place w → ¬ IsWrapper .idOnly w := by
  intro v
  have hwf : v.WellFormed := by
    simp [v, wellFormed_obj_iff, Entries.keys, WellFormed.str]
  have hsame : (v.normalize .idOnly).normalize .idOnly = v.normalize .idOnly := by rfl
  obtain ⟨hkept, hleft, -⟩ := normalize_normalize_eq_iff .idOnly hwf
  refine ⟨hwf, .field (List.mem_cons_of_mem _ List.mem_cons_self) (.here _), ?_, hsame,
    hkept.mp hsame, hleft.mp hsame⟩
  exact .formed (.id (.text "b")) ⟨_, .id (.text "b")⟩

/-- A wrapper in a wrapper takes two passes in either mode. -/
theorem wrapper_left_by_one_pass :
    let v : Json := .obj [("$oid", .obj [("$oid", .str "a")])]
    v.WellFormed ∧
      v.normalize .allSpecialFields = .obj [("$oid", .str "a")] ∧
      (v.normalize .allSpecialFields).normalize .allSpecialFields ≠ v.normalize .allSpecialFields ∧
      v.normalize .idOnly = .obj [("$oid", .str "a")] ∧
      (v.normalize .idOnly).normalize .idOnly ≠ v.normalize .idOnly := by
  intro v
  have hwf : v.WellFormed := by
    simp [v, wellFormed_obj_iff, Entries.keys, WellFormed.str]
  have hbroad : v.normalize .allSpecialFields = .obj [("$oid", .str "a")] := by rfl
  have hnarrow : v.normalize .idOnly = .obj [("$oid", .str "a")] := by rfl
  refine ⟨hwf, hbroad, ?_, hnarrow, ?_⟩
  · rw [hbroad, (Wraps.id (.any (.str "a"))).normalize]
    simp
  · rw [hnarrow, (Wraps.id (.text "a")).normalize]
    simp

end ShellQuery.Json
