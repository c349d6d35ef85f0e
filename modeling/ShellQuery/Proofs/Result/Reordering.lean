import ShellQuery.Proofs.Json.WellFormed
import ShellQuery.Proofs.Result.Wrappers

/-!
# The order of properties

`Reordered` relates values that differ at most in the order of the properties of their objects: it
is the least congruence that contains every change of order in one object.  Normalizing keeps it,
as a wrapper has one property, and the id that moves is found, and put in the place of all under its
new name, wherever it stands.

The main statement is `normalize_reordered`.
-/

namespace ShellQuery.Json

variable {mode : NormalizeMode} {u v w held : Json} {entries entries' : Entries Json}

/-! ## Values up to order -/

/-- The values differ at most in the order of the properties of their objects. -/
inductive Reordered : Json → Json → Prop where
  | refl (v : Json) : Reordered v v
  | trans {u v w : Json} (h : Reordered u v) (h' : Reordered v w) : Reordered u w
  | properties {entries entries' : List (String × Json)} (h : entries.Perm entries') :
      Reordered (.obj entries) (.obj entries')
  | property {front back : List (String × Json)} {name : String} {v w : Json}
      (h : Reordered v w) :
      Reordered (.obj (front ++ (name, v) :: back)) (.obj (front ++ (name, w) :: back))
  | item {front back : List Json} {v w : Json} (h : Reordered v w) :
      Reordered (.arr (front ++ v :: back)) (.arr (front ++ w :: back))

namespace Reordered

theorem symm (h : Reordered v w) : Reordered w v := by
  induction h with
  | refl v => exact .refl v
  | trans _ _ ih ih' => exact ih'.trans ih
  | properties h => exact .properties h.symm
  | property _ ih => exact .property ih
  | item _ ih => exact .item ih

/-- A value without parts has no other order. -/
theorem eq_of_forall_ne (h : Reordered v w) (harr : ∀ items, v ≠ .arr items)
    (hobj : ∀ entries, v ≠ .obj entries) : w = v := by
  induction h with
  | refl => rfl
  | trans _ _ ih ih' =>
    obtain rfl := ih harr hobj
    exact ih' harr hobj
  | properties | property => exact absurd rfl (hobj _)
  | item => exact absurd rfl (harr _)

/-- A change of order gives no object a name twice. -/
theorem wellFormed (h : Reordered v w) (hv : v.WellFormed) : w.WellFormed := by
  induction h with
  | refl => exact hv
  | trans _ _ ih ih' => exact ih' (ih hv)
  | properties h =>
    obtain ⟨hnodup, hvalues⟩ := wellFormed_obj_iff.mp hv
    exact wellFormed_obj_iff.mpr
      ⟨(h.map Prod.fst).nodup_iff.mp hnodup, fun e he => hvalues e (h.mem_iff.mpr he)⟩
  | property _ ih =>
    simp only [wellFormed_obj_iff, Entries.keys, List.map_append, List.map_cons,
      List.forall_mem_append, List.forall_mem_cons] at hv ⊢
    obtain ⟨hnodup, hfront, hvalue, hback⟩ := hv
    exact ⟨hnodup, hfront, ih hvalue, hback⟩
  | item _ ih =>
    have hitems := List.forall_mem_append.mp hv.items
    obtain ⟨hvalue, hback⟩ := List.forall_mem_cons.mp hitems.2
    exact .arr (List.forall_mem_append.mpr
      ⟨hitems.1, List.forall_mem_cons.mpr ⟨ih hvalue, hback⟩⟩)

/-! ## Wrappers -/

/-- One property has one order. -/
theorem exists_of_singleton {name : String} {inner : Json}
    (h : Reordered (.obj [(name, inner)]) w) :
    ∃ inner', w = .obj [(name, inner')] ∧ Reordered inner inner' := by
  generalize hv : Json.obj [(name, inner)] = v at h
  induction h generalizing inner with
  | refl => exact ⟨inner, hv.symm, .refl inner⟩
  | trans _ _ ih ih' =>
    obtain ⟨middle, rfl, hmiddle⟩ := ih hv
    obtain ⟨inner', rfl, hinner'⟩ := ih' rfl
    exact ⟨inner', rfl, hmiddle.trans hinner'⟩
  | properties h =>
    cases hv
    obtain rfl := List.singleton_perm.mp h
    exact ⟨inner, rfl, .refl inner⟩
  | property h =>
    obtain ⟨rfl, heq⟩ | ⟨-, heq⟩ := List.append_eq_singleton_iff.mp (Json.obj.inj hv).symm
    · cases heq
      exact ⟨_, rfl, h⟩
    · cases heq
  | item => cases hv

/-- The wrapper of an object id in another order holds the same id, in another order. -/
theorem wrapsId (h : Reordered v w) (hv : WrapsId mode v held) :
    ∃ held', WrapsId mode w held' ∧ Reordered held held' := by
  cases hv with
  | text s =>
    obtain ⟨inner, rfl, hinner⟩ := h.exists_of_singleton
    obtain rfl := hinner.eq_of_forall_ne nofun nofun
    exact ⟨_, .text s, .refl _⟩
  | any =>
    obtain ⟨inner, rfl, hinner⟩ := h.exists_of_singleton
    exact ⟨inner, .any inner, hinner⟩

theorem wraps (h : Reordered v w) (hv : Wraps mode v held) :
    ∃ held', Wraps mode w held' ∧ Reordered held held' := by
  cases hv with
  | id hv =>
    obtain ⟨held', hheld', horder⟩ := h.wrapsId hv
    exact ⟨held', .id hheld', horder⟩
  | long hlow hhigh =>
    obtain ⟨inner, rfl, hinner⟩ := h.exists_of_singleton
    obtain rfl := hinner.eq_of_forall_ne nofun nofun
    exact ⟨_, .long hlow hhigh, .refl _⟩
  | longText htext hlow hhigh =>
    obtain ⟨inner, rfl, hinner⟩ := h.exists_of_singleton
    obtain rfl := hinner.eq_of_forall_ne nofun nofun
    exact ⟨_, .longText htext hlow hhigh, .refl _⟩

theorem isWrapper (h : Reordered v w) (hv : IsWrapper mode v) : IsWrapper mode w := by
  obtain ⟨held, hheld⟩ := hv
  obtain ⟨held', hheld', -⟩ := h.wraps hheld
  exact ⟨held', hheld'⟩

end Reordered

/-! ## The id that moves -/

theorem Reordered.rel_wrappedId? (h : Reordered v w) :
    Option.Rel Reordered (wrappedId? mode v) (wrappedId? mode w) := by
  cases hw : wrappedId? mode w with
  | some held =>
    obtain ⟨held', hheld', horder⟩ := h.symm.wrapsId (wrappedId?_eq_some_iff_wrapsId.mp hw)
    rw [wrappedId?_eq_some_iff_wrapsId.mpr hheld']
    exact .some horder.symm
  | none =>
    cases hv : wrappedId? mode v with
    | none => exact .none
    | some held =>
      obtain ⟨held', hheld', -⟩ := h.wrapsId (wrappedId?_eq_some_iff_wrapsId.mp hv)
      rw [wrappedId?_eq_some_iff_wrapsId.mpr hheld'] at hw
      cases hw

/-- One property in another order changes the id that moves in its order only. -/
theorem Reordered.rel_primaryId? (h : Reordered v w) (front back : Entries Json) (name : String) :
    Option.Rel Reordered (primaryId? mode (front ++ (name, v) :: back))
      (primaryId? mode (front ++ (name, w) :: back)) := by
  have hrefl : ∀ found : Option Json, Option.Rel Reordered found found := by
    rintro (- | id)
    · exact .none
    · exact .some (.refl id)
  rw [primaryId?, primaryId?, Entries.find?_append, Entries.find?_append, Entries.find?,
    Entries.find?]
  cases Entries.find? front "_id" with
  | some first => exact hrefl _
  | none =>
    rw [Option.none_or, Option.none_or]
    split
    · exact h.rel_wrappedId?
    · exact hrefl _

/-- One property in another order stays in its place beside an id that moves, or is lost. -/
theorem Reordered.renameId_property {front back : Entries Json} {name : String} {id id' : Json}
    (h : Reordered v w) (hid : Reordered id id')
    (hnodup : (Entries.keys (front ++ (name, v) :: back)).Nodup) :
    Reordered (.obj (renameId (some id) (front ++ (name, v) :: back)))
      (.obj (renameId (some id') (front ++ (name, w) :: back))) := by
  have hnodup' : (Entries.keys (front ++ (name, w) :: back)).Nodup := by
    simpa [Entries.keys] using hnodup
  have hbeside : Reordered (.obj (("id", id') :: besideId (front ++ (name, v) :: back)))
      (.obj (("id", id') :: besideId (front ++ (name, w) :: back))) := by
    simp only [besideId, List.filter_append, List.filter_cons]
    split
    · exact @property (("id", id') :: _) _ name v w h
    · exact .refl _
  have hfirst := perm_renameId hnodup id
  have hlast := (perm_renameId hnodup' id').symm
  exact ((properties hfirst).trans (@property [] _ "id" id id' hid)).trans
    (hbeside.trans (properties hlast))

/-! ## Normalizing -/

/-- An object in another order is a wrapper when the object is one. -/
theorem Reordered.normalize_obj (h : Reordered (.obj entries) (.obj entries'))
    (hfields : Reordered (.obj (renameId (primaryId? mode entries) (normalizeFields mode entries)))
      (.obj (renameId (primaryId? mode entries') (normalizeFields mode entries')))) :
    Reordered ((obj entries).normalize mode) ((obj entries').normalize mode) := by
  by_cases hobj : IsWrapper mode (.obj entries)
  · obtain ⟨held, hheld⟩ := hobj
    obtain ⟨held', hheld', horder⟩ := h.wraps hheld
    rw [hheld.normalize, hheld'.normalize]
    exact horder
  · have hobj' : ¬ IsWrapper mode (.obj entries') := fun hwrapper => hobj (h.symm.isWrapper hwrapper)
    rw [normalize_obj_of_unwrapped (unwrapEntries?_eq_none_iff.mpr hobj),
      normalize_obj_of_unwrapped (unwrapEntries?_eq_none_iff.mpr hobj')]
    exact hfields

/-- The order of properties does not matter.  The induction is on how the order was changed. -/
theorem Reordered.normalize (h : Reordered v w) (hwf : v.WellFormed) :
    Reordered (v.normalize mode) (w.normalize mode) := by
  induction h with
  | refl => exact .refl _
  | trans h _ ih ih' => exact (ih hwf).trans (ih' (h.wellFormed hwf))
  | @item front back v w h ih =>
    rw [Json.normalize, Json.normalize, normalizeItems_eq_map, normalizeItems_eq_map,
      List.map_append, List.map_append, List.map_cons, List.map_cons]
    exact .item (ih (hwf.items v (by simp)))
  | @properties entries entries' h =>
    have hnodup := hwf.nodup_keys
    have hprimary : primaryId? mode entries' = primaryId? mode entries := by
      rw [primaryId?, primaryId?, Entries.find?_of_perm h hnodup]
    have hfields : (normalizeFields mode entries).Perm (normalizeFields mode entries') := by
      rw [normalizeFields_eq_map, normalizeFields_eq_map]
      exact h.map _
    refine (Reordered.properties h).normalize_obj (.properties ?_)
    rw [hprimary]
    cases primaryId? mode entries with
    | none => exact hfields
    | some id =>
      rw [← keys_normalizeFields mode] at hnodup
      have hnodup' := (hfields.map Prod.fst).nodup_iff.mp hnodup
      have hbeside : (besideId (normalizeFields mode entries)).Perm
          (besideId (normalizeFields mode entries')) := hfields.filter _
      exact (perm_renameId hnodup id).trans
        ((hbeside.cons _).trans (perm_renameId hnodup' id).symm)
  | @property front back name v w h ih =>
    obtain ⟨hnodup, hvalues⟩ := wellFormed_obj_iff.mp hwf
    have hvalue := ih (hvalues (name, v) (by simp))
    have hprimary : Option.Rel Reordered (primaryId? mode (front ++ (name, v) :: back))
        (primaryId? mode (front ++ (name, w) :: back)) := h.rel_primaryId? front back name
    refine (Reordered.property h).normalize_obj ?_
    rw [← keys_normalizeFields mode] at hnodup
    -- only whether the ids are there matters from here on, and that they are reordered
    generalize primaryId? mode (front ++ (name, v) :: back) = found at hprimary ⊢
    generalize primaryId? mode (front ++ (name, w) :: back) = found' at hprimary ⊢
    rw [normalizeFields_eq_map, List.map_append, List.map_cons] at hnodup ⊢
    rw [normalizeFields_eq_map, List.map_append, List.map_cons]
    cases hprimary with
    | none => exact .property hvalue
    | some hid => exact hvalue.renameId_property hid hnodup

/-- An id that moves from `_id` is the only `id` of the object, and no `_id` is left. -/
theorem exists_normalize_eq_of_wrappedId {wrapped id : Json} (hwf : (Json.obj entries).WellFormed)
    (hfind : Entries.find? entries "_id" = some wrapped) (hwrapped : WrapsId mode wrapped id) :
    ∃ out, (obj entries).normalize mode = .obj out ∧ "_id" ∉ Entries.keys out ∧
      (Entries.keys out).count "id" = 1 ∧ Entries.find? out "id" = some id := by
  have hobj : ¬ IsWrapper mode (.obj entries) := by
    intro h
    have hname := h.name_of_mem (Entries.mem_of_find? hfind)
    simp at hname
  have hprimary : primaryId? mode entries = some id :=
    primaryId?_eq_some_iff.mpr ⟨wrapped, hfind, hwrapped⟩
  have hkeys := (perm_renameId (keys_normalizeFields mode entries ▸ hwf.nodup_keys) id).map Prod.fst
  have hbeside : ∀ name ∈ (besideId (normalizeFields mode entries)).map Prod.fst,
      name ≠ "id" ∧ name ≠ "_id" := by
    rw [List.forall_mem_map]
    exact fun e he => (mem_besideId_iff.mp he).2
  refine ⟨renameId (some id) (normalizeFields mode entries), ?_, ?_, ?_, ?_⟩
  · rw [normalize_obj_of_unwrapped (unwrapEntries?_eq_none_iff.mpr hobj), hprimary]
  · rw [Entries.keys, hkeys.mem_iff, List.map_cons, List.mem_cons, not_or]
    exact ⟨by simp, fun hmem => (hbeside _ hmem).2 rfl⟩
  · rw [Entries.keys, hkeys.count_eq, List.map_cons, List.count_cons_self,
      List.count_eq_zero.mpr fun hmem => (hbeside _ hmem).1 rfl]
  · exact Entries.find?_put_self _ _ _

/-! ## Main result -/

/-- Values that differ in the order of properties are normalized to values that differ in it.
    Wherever an object has a wrapped object id under `_id`, before or behind a property `id`, it
    gets the id as its one `id` and has no `_id`. -/
theorem normalize_reordered (mode : NormalizeMode) {v w : Json} (hwf : v.WellFormed)
    (h : Reordered v w) :
    Reordered (v.normalize mode) (w.normalize mode) ∧
    ∀ entries wrapped id, w = .obj entries → Entries.find? entries "_id" = some wrapped →
      WrapsId mode wrapped id →
      ∃ out, w.normalize mode = .obj out ∧ "_id" ∉ Entries.keys out ∧
        (Entries.keys out).count "id" = 1 ∧ Entries.find? out "id" = some id := by
  refine ⟨h.normalize hwf, ?_⟩
  rintro entries wrapped id rfl hfind hwrapped
  exact exists_normalize_eq_of_wrappedId (h.wellFormed hwf) hfind hwrapped

/-- An `id` in front of the wrapped id and one behind it give way alike. -/
theorem normalize_reordered_around_id :
    let v : Json := .obj [("_id", .obj [("$oid", .str "a")]), ("id", .str "b"),
      ("items", .arr [.obj [("x", .int 1), ("y", .int 2)]])]
    let w : Json := .obj [("items", .arr [.obj [("y", .int 2), ("x", .int 1)]]), ("id", .str "b"),
      ("_id", .obj [("$oid", .str "a")])]
    v.WellFormed ∧ Reordered v w ∧
      v.normalize .idOnly =
        .obj [("id", .str "a"), ("items", .arr [.obj [("x", .int 1), ("y", .int 2)]])] ∧
      Reordered (v.normalize .idOnly) (w.normalize .idOnly) ∧
      ∃ out, w.normalize .idOnly = .obj out ∧ "_id" ∉ Entries.keys out ∧
        (Entries.keys out).count "id" = 1 ∧ Entries.find? out "id" = some (.str "a") := by
  intro v w
  have hitems : (Json.arr [.obj [("x", .int 1), ("y", .int 2)]]).WellFormed := by
    refine .arr (List.forall_mem_singleton.mpr ?_)
    simp [wellFormed_obj_iff, Entries.keys, WellFormed.int]
  have hwf : v.WellFormed := by
    simp [v, wellFormed_obj_iff, Entries.keys, WellFormed.str, hitems]
  have horder : Reordered v w := by
    have hinner : Reordered (.obj [("x", .int 1), ("y", .int 2)])
        (.obj [("y", .int 2), ("x", .int 1)]) := .properties (.swap _ _ _)
    have hproperty := @Reordered.property [("_id", .obj [("$oid", .str "a")]), ("id", .str "b")] []
      "items" _ _ (@Reordered.item [] [] _ _ hinner)
    exact hproperty.trans (.properties (List.reverse_perm _).symm)
  obtain ⟨hresult, hid⟩ := normalize_reordered .idOnly hwf horder
  exact ⟨hwf, horder, rfl, hresult, hid _ _ _ rfl rfl (.text "a")⟩

end ShellQuery.Json
