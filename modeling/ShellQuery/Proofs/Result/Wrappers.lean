import Mathlib.Algebra.Order.BigOperators.Group.List
import ShellQuery.Proofs.Result.Places

/-!
# What normalizing changes

A value in which no object is a wrapper is left as it is, names and order included.  In any other
value the walk takes away at least one part: what takes the place of a wrapper is smaller than the
wrapper, and an id that moves to another name is one that was wrapped.

The main statement is `normalize_eq_self_iff`.
-/

namespace ShellQuery.Entries

/-! ## Weights of entries -/

variable {α : Type} {entries : Entries α} {key : String} {value : α}

/-- Writing an entry adds no more than its own weight. -/
theorem sum_put_le (weight : α → Nat) (entries : Entries α) (key : String) (value : α) :
    ((put entries key value).map fun e => weight e.2).sum ≤
      (entries.map fun e => weight e.2).sum + weight value := by
  induction entries with
  | nil => simp [put]
  | cons first rest ih =>
    obtain ⟨k, w⟩ := first
    rw [put]
    split
    · simp only [List.map_cons, List.sum_cons]
      omega
    · simp only [List.map_cons, List.sum_cons]
      omega

theorem sum_erase (weight : α → Nat) (h : find? entries key = some value) :
    ((erase entries key).map fun e => weight e.2).sum + weight value =
      (entries.map fun e => weight e.2).sum := by
  induction entries with
  | nil => cases h
  | cons first rest ih =>
    obtain ⟨k, w⟩ := first
    rw [find?] at h
    rw [erase]
    split at h
    · next hk =>
      cases h
      rw [if_pos hk, List.map_cons, List.sum_cons, Nat.add_comm]
    · next hk =>
      rw [if_neg hk, List.map_cons, List.map_cons, List.sum_cons, List.sum_cons, Nat.add_assoc,
        ih h]

end ShellQuery.Entries

namespace ShellQuery.Json

variable {mode : NormalizeMode} {v held : Json} {items : List Json} {entries : Entries Json}
  {name : String}

/-! ## Values -/

/-- Induction over a value, through the items of its lists and the properties of its objects. -/
@[elab_as_elim]
theorem induction {motive : Json → Prop} (null : motive .null) (bool : ∀ b, motive (.bool b))
    (int : ∀ i, motive (.int i)) (float : ∀ d, motive (.float d)) (str : ∀ s, motive (.str s))
    (arr : ∀ items : List Json, (∀ v ∈ items, motive v) → motive (.arr items))
    (obj : ∀ entries : List (String × Json), (∀ e ∈ entries, motive e.2) → motive (.obj entries)) :
    ∀ v : Json, motive v
  | .null => null
  | .bool b => bool b
  | .int i => int i
  | .float d => float d
  | .str s => str s
  | .arr items => arr items fun v _ => induction null bool int float str arr obj v
  | .obj entries => obj entries fun e _ => induction null bool int float str arr obj e.2
termination_by v => sizeOf v
decreasing_by
  · next hv =>
    have hlt := List.sizeOf_lt_of_mem hv
    rw [Json.arr.sizeOf_spec]
    omega
  · next he =>
    have hlt := List.sizeOf_lt_of_mem he
    obtain ⟨name, v⟩ := e
    rw [Prod.mk.sizeOf_spec] at hlt
    show sizeOf v < _
    rw [Json.obj.sizeOf_spec]
    omega

/-! ## Values without wrappers -/

/-- No part of the value is a wrapper that the mode replaces. -/
def Unwrapped (mode : NormalizeMode) (v : Json) : Prop :=
  ∀ place w, v.At place w → ¬ IsWrapper mode w

theorem IsWrapper.name_of_mem (h : IsWrapper mode (.obj entries)) (hmem : (name, v) ∈ entries) :
    name = "$oid" ∨ name = "$numberLong" := by
  obtain ⟨held, h⟩ := h
  cases h with
  | id h =>
    obtain ⟨inner, heq⟩ := h.exists_inner
    cases heq
    cases List.mem_singleton.mp hmem
    exact .inl rfl
  | long | longText =>
    cases List.mem_singleton.mp hmem
    exact .inr rfl

/-- A value without parts is no wrapper and has none in it. -/
theorem unwrapped_of_forall_ne (harr : ∀ items, v ≠ .arr items) (hobj : ∀ entries, v ≠ .obj entries) :
    Unwrapped mode v := by
  intro place w hat hw
  cases hat with
  | here =>
    obtain ⟨held, hw⟩ := hw
    obtain ⟨tag, inner, rfl⟩ := hw.exists_entry
    exact hobj _ rfl
  | field => exact hobj _ rfl
  | item => exact harr _ rfl

theorem unwrapped_arr_iff : Unwrapped mode (.arr items) ↔ ∀ v ∈ items, Unwrapped mode v := by
  constructor
  · intro h v hv place w hat
    obtain ⟨index, hindex⟩ := List.mem_iff_getElem?.mp hv
    exact h _ w (.item hindex hat)
  · intro h place w hat
    cases hat with
    | here =>
      rintro ⟨held, hw⟩
      obtain ⟨tag, inner, heq⟩ := hw.exists_entry
      cases heq
    | item hitem hat => exact h _ (List.mem_of_getElem? hitem) _ w hat

theorem unwrapped_obj_iff :
    Unwrapped mode (.obj entries) ↔
      ¬ IsWrapper mode (.obj entries) ∧ ∀ e ∈ entries, Unwrapped mode e.2 := by
  constructor
  · intro h
    exact ⟨h [] _ (.here _), fun e he place w hat => h _ w (.field he hat)⟩
  · rintro ⟨hobj, h⟩ place w hat
    cases hat with
    | here => exact hobj
    | field hmem hat => exact h _ hmem _ w hat

theorem unwrapEntries?_eq_none_iff :
    unwrapEntries? mode entries = none ↔ ¬ IsWrapper mode (.obj entries) := by
  rw [Option.eq_none_iff_forall_ne_some, IsWrapper, not_exists]
  exact forall_congr' fun held => not_congr unwrapEntries?_eq_some_iff_wraps

/-- The id that moves is one that stands in its wrapper. -/
theorem primaryId?_eq_some_iff :
    primaryId? mode entries = some held ↔
      ∃ v, Entries.find? entries "_id" = some v ∧ WrapsId mode v held := by
  simp only [primaryId?, Option.bind_eq_some_iff, wrappedId?_eq_some_iff_wrapsId]

/-- A value without wrappers is left as it is. -/
theorem Unwrapped.normalize (h : Unwrapped mode v) : v.normalize mode = v := by
  induction v using Json.induction with
  | null | bool | int | float | str => rfl
  | arr items ih =>
    rw [unwrapped_arr_iff] at h
    have hitems : items.map (Json.normalize mode) = items :=
      (List.map_congr_left fun v hv => ih v hv (h v hv)).trans (List.map_id' items)
    rw [Json.normalize, normalizeItems_eq_map, hitems]
  | obj entries ih =>
    obtain ⟨hobj, h⟩ := unwrapped_obj_iff.mp h
    have hfields : normalizeFields mode entries = entries := by
      rw [normalizeFields_eq_map]
      exact (List.map_congr_left fun e he => by rw [ih e he (h e he)]).trans (List.map_id' entries)
    -- an id that moved would stand in a wrapper
    have hprimary : primaryId? mode entries = none := by
      rw [Option.eq_none_iff_forall_ne_some]
      intro held hheld
      obtain ⟨v, hfind, hv⟩ := primaryId?_eq_some_iff.mp hheld
      exact h _ (Entries.mem_of_find? hfind) [] v (.here v) ⟨held, .id hv⟩
    rw [normalize_obj_of_unwrapped (unwrapEntries?_eq_none_iff.mpr hobj), hfields, hprimary,
      renameId]

/-! ## Sizes -/

mutual

/-- How many values there are in a value, itself included. -/
def size : Json → Nat
  | arr items => sizeItems items + 1
  | obj entries => sizeFields entries + 1
  | _ => 1

/-- How many values there are in the items of a list. -/
def sizeItems : List Json → Nat
  | [] => 0
  | item :: items => size item + sizeItems items

/-- How many values there are in the properties of an object. -/
def sizeFields : List (String × Json) → Nat
  | [] => 0
  | (_, item) :: fields => size item + sizeFields fields

end

theorem size_arr (items : List Json) : size (.arr items) = (items.map size).sum + 1 := by
  rw [size]
  induction items with
  | nil => rfl
  | cons v rest ih =>
    rw [sizeItems, List.map_cons, List.sum_cons, Nat.add_assoc, ih, Nat.add_assoc]

theorem size_obj (entries : Entries Json) :
    size (.obj entries) = (entries.map fun e => size e.2).sum + 1 := by
  rw [size]
  induction entries with
  | nil => rfl
  | cons e rest ih =>
    obtain ⟨name, v⟩ := e
    rw [sizeFields, List.map_cons, List.sum_cons, Nat.add_assoc, ih, Nat.add_assoc]

theorem size_pos (v : Json) : 0 < v.size := by
  cases v <;> simp [size]

/-- What takes the place of a wrapper is smaller. -/
theorem Wraps.size_lt (h : Wraps mode v held) : held.size < v.size := by
  cases h with
  | id h => cases h <;> simp [size, sizeFields]
  | long | longText => simp [size, sizeFields]

/-- An id that moves takes its value along, so nothing is added. -/
theorem size_renameId_le (mode : NormalizeMode) (entries : Entries Json) :
    size (.obj (renameId (primaryId? mode entries) (normalizeFields mode entries))) ≤
      size (.obj (normalizeFields mode entries)) := by
  cases hprimary : primaryId? mode entries with
  | none => rw [renameId]
  | some held =>
    obtain ⟨v, hfind, hv⟩ := primaryId?_eq_some_iff.mp hprimary
    -- under `_id` stands what the wrapper held, as the walk has replaced it
    have hmoved : Entries.find? (normalizeFields mode entries) "_id" = some held := by
      rw [normalizeFields_eq_map, Entries.find?_map fun _ => Json.normalize mode, hfind,
        Option.map_some, (Wraps.id hv).normalize]
    have herase := Entries.sum_erase size hmoved
    have hput := Entries.sum_put_le size (Entries.erase (normalizeFields mode entries) "_id")
      "id" held
    rw [renameId, size_obj, size_obj]
    omega

/-- One part that gets smaller is enough, as parts without wrappers do not grow. -/
theorem sum_size_normalize_lt {α : Type} {parts : List α} {value : α → Json}
    (h : ∀ x ∈ parts,
      Unwrapped mode (value x) ∨ ((value x).normalize mode).size < (value x).size)
    (hnot : ¬ ∀ x ∈ parts, Unwrapped mode (value x)) :
    (parts.map fun x => ((value x).normalize mode).size).sum <
      (parts.map fun x => (value x).size).sum := by
  push Not at hnot
  obtain ⟨x, hx, hunwrapped⟩ := hnot
  have hle : ∀ y ∈ parts, ((value y).normalize mode).size ≤ (value y).size := by
    intro y hy
    obtain hsame | hlt := h y hy
    · rw [hsame.normalize]
    · exact hlt.le
  exact List.sum_lt_sum _ _ hle ⟨x, hx, (h x hx).resolve_left hunwrapped⟩

/-- A value with a wrapper in it gets smaller. -/
theorem unwrapped_or_size_lt (mode : NormalizeMode) (v : Json) :
    Unwrapped mode v ∨ (v.normalize mode).size < v.size := by
  induction v using Json.induction with
  | null | bool | int | float | str => exact .inl (unwrapped_of_forall_ne nofun nofun)
  | arr items ih =>
    by_cases hitems : ∀ v ∈ items, Unwrapped mode v
    · exact .inl (unwrapped_arr_iff.mpr hitems)
    · right
      rw [Json.normalize, normalizeItems_eq_map, size_arr, size_arr, List.map_map]
      exact Nat.succ_lt_succ (sum_size_normalize_lt ih hitems)
  | obj entries ih =>
    cases hunwrap : unwrapEntries? mode entries with
    | some held =>
      have hwraps := unwrapEntries?_eq_some_iff_wraps.mp hunwrap
      right
      rw [hwraps.normalize]
      exact hwraps.size_lt
    | none =>
      by_cases hentries : ∀ e ∈ entries, Unwrapped mode e.2
      · exact .inl (unwrapped_obj_iff.mpr ⟨unwrapEntries?_eq_none_iff.mp hunwrap, hentries⟩)
      · right
        have hfields : size (.obj (normalizeFields mode entries)) < size (.obj entries) := by
          rw [normalizeFields_eq_map, size_obj, size_obj, List.map_map]
          exact Nat.succ_lt_succ (sum_size_normalize_lt ih hentries)
        rw [normalize_obj_of_unwrapped hunwrap]
        exact (size_renameId_le mode entries).trans_lt hfields

theorem unwrapped_of_normalize_eq (h : v.normalize mode = v) : Unwrapped mode v := by
  refine (unwrapped_or_size_lt mode v).resolve_right fun hlt => ?_
  rw [h] at hlt
  exact lt_irrefl _ hlt

/-! ## Main result -/

/-- Normalizing leaves a value as it is, with the order of its properties, exactly when no object
    in it is a wrapper of the mode. -/
theorem normalize_eq_self_iff (mode : NormalizeMode) (v : Json) :
    v.normalize mode = v ↔ ∀ place w, v.At place w → ¬ IsWrapper mode w :=
  ⟨unwrapped_of_normalize_eq, Unwrapped.normalize⟩

end ShellQuery.Json
