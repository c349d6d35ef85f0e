import ShellQuery.Entries

/-!
# Names of entries

Where no name occurs twice, looking up a name and being among the entries are the same.  Writing,
dropping and reading entries keep names apart.

`merge` says without writing what many entries make of others: each gives its value to the entry of
its name, or comes behind all of them.  Writing them one by one gives the same: `putAll_eq_merge`.
-/

namespace ShellQuery.Entries

variable {α : Type} {entries : Entries α} {key name : String} {v value : α}

theorem keys_cons (name : String) (v : α) (entries : Entries α) :
    keys ((name, v) :: entries) = name :: keys entries := rfl

theorem mem_keys_of_mem (h : (name, v) ∈ entries) : name ∈ keys entries :=
  List.mem_map.mpr ⟨(name, v), h, rfl⟩

theorem exists_mem_of_mem_keys (h : name ∈ keys entries) : ∃ v, (name, v) ∈ entries := by
  obtain ⟨⟨k, v⟩, hmem, rfl⟩ := List.mem_map.mp h
  exact ⟨v, hmem⟩

/-! ## Looking up -/

theorem mem_of_find? (h : find? entries name = some v) : (name, v) ∈ entries := by
  induction entries with
  | nil => cases h
  | cons e rest ih =>
    obtain ⟨k, w⟩ := e
    rw [find?] at h
    split at h
    · next hk =>
      cases h
      rw [hk]
      exact List.mem_cons_self
    · exact List.mem_cons_of_mem _ (ih h)

theorem find?_eq_none_iff : find? entries name = none ↔ name ∉ keys entries := by
  induction entries with
  | nil => simp [find?, keys]
  | cons e rest ih =>
    obtain ⟨k, w⟩ := e
    rw [find?, keys_cons, List.mem_cons, not_or]
    split
    · next hk => simp [hk]
    · next hk => rw [ih, and_iff_right (Ne.symm hk)]

/-- Where no name occurs twice, the entry that is found is the one that is there. -/
theorem find?_eq_some_iff (hnodup : (keys entries).Nodup) :
    find? entries name = some v ↔ (name, v) ∈ entries := by
  refine ⟨mem_of_find?, fun h => ?_⟩
  induction entries with
  | nil => cases h
  | cons e rest ih =>
    obtain ⟨k, w⟩ := e
    rw [keys_cons, List.nodup_cons] at hnodup
    rw [find?]
    obtain heq | hrest := List.mem_cons.mp h
    · cases heq
      rw [if_pos rfl]
    · -- the first entry has another name, as the name occurs behind it
      have hk : k ≠ name := fun hk => hnodup.1 (hk ▸ mem_keys_of_mem hrest)
      rw [if_neg hk]
      exact ih hnodup.2 hrest

theorem find?_map {β : Type} (f : String → α → β) (entries : Entries α) (name : String) :
    find? (entries.map fun e => (e.1, f e.1 e.2)) name = (find? entries name).map (f name) := by
  induction entries with
  | nil => rfl
  | cons e rest ih =>
    obtain ⟨k, w⟩ := e
    rw [List.map_cons, find?, find?]
    split
    · next hk => rw [hk, Option.map_some]
    · exact ih

/-- Things that have a value give entries with their names, in their order. -/
theorem keys_filterMap_sublist {β : Type} (nameOf : β → String) (value? : β → Option α)
    (things : List β) :
    (keys (things.filterMap fun b => (value? b).map fun v => (nameOf b, v))).Sublist
      (things.map nameOf) := by
  induction things with
  | nil => exact .slnil
  | cons b rest ih =>
    rw [List.filterMap_cons, List.map_cons]
    cases value? b with
    | none => exact ih.cons _
    | some v => exact ih.cons_cons _

/-- Where each thing has a name of its own, its value is found under its name. -/
theorem find?_filterMap {β : Type} (nameOf : β → String) (value? : β → Option α) {things : List β}
    {b : β} (hnodup : (things.map nameOf).Nodup) (hb : b ∈ things) :
    find? (things.filterMap fun b => (value? b).map fun v => (nameOf b, v)) (nameOf b) =
      value? b := by
  induction things with
  | nil => cases hb
  | cons first rest ih =>
    rw [List.map_cons, List.nodup_cons] at hnodup
    rw [List.filterMap_cons]
    obtain rfl | hrest := List.mem_cons.mp hb
    · -- no other thing has the name
      have hnone := mt ((keys_filterMap_sublist nameOf value? rest).subset ·) hnodup.1
      cases hv : value? b with
      | none => exact find?_eq_none_iff.mpr hnone
      | some v => exact if_pos rfl
    · have hne : nameOf first ≠ nameOf b := fun heq =>
        hnodup.1 (heq ▸ List.mem_map_of_mem hrest)
      cases value? first with
      | none => exact ih hnodup.2 hrest
      | some v => exact (if_neg hne).trans (ih hnodup.2 hrest)

/-- Where no name occurs twice, what is found does not depend on the order. -/
theorem find?_of_perm {more : Entries α} (h : entries.Perm more) (hnodup : (keys entries).Nodup)
    (name : String) : find? entries name = find? more name := by
  have hnodup' : (keys more).Nodup := (h.map Prod.fst).nodup_iff.mp hnodup
  refine Option.ext fun v => ?_
  rw [find?_eq_some_iff hnodup, find?_eq_some_iff hnodup', h.mem_iff]

/-! ## Writing -/

theorem mem_put {e : String × α} (h : e ∈ put entries key value) :
    e = (key, value) ∨ e ∈ entries := by
  induction entries with
  | nil => exact .inl (List.mem_singleton.mp h)
  | cons first rest ih =>
    obtain ⟨k, w⟩ := first
    rw [put] at h
    split at h
    · exact (List.mem_cons.mp h).imp_right (List.mem_cons_of_mem _)
    · obtain rfl | hrest := List.mem_cons.mp h
      · exact .inr List.mem_cons_self
      · exact (ih hrest).imp_right (List.mem_cons_of_mem _)

/-- Writing keeps the other entries. -/
theorem mem_put_of_ne (hne : name ≠ key) (h : (name, v) ∈ entries) :
    (name, v) ∈ put entries key value := by
  induction entries with
  | nil => cases h
  | cons first rest ih =>
    obtain ⟨k, w⟩ := first
    rw [put]
    obtain heq | hrest := List.mem_cons.mp h
    · cases heq
      rw [if_neg hne]
      exact List.mem_cons_self
    · split
      · exact List.mem_cons_of_mem _ hrest
      · exact List.mem_cons_of_mem _ (ih hrest)

theorem nodup_keys_put (h : (keys entries).Nodup) : (keys (put entries key value)).Nodup := by
  induction entries with
  | nil => simp [put, keys]
  | cons first rest ih =>
    obtain ⟨k, w⟩ := first
    rw [keys_cons, List.nodup_cons] at h
    rw [put]
    split
    · next hk =>
      rw [keys_cons, List.nodup_cons, ← hk]
      exact h
    · next hk =>
      rw [keys_cons, List.nodup_cons]
      refine ⟨fun hmem => ?_, ih h.2⟩
      -- a name of the result is the new one or was there before
      obtain ⟨x, hx⟩ := exists_mem_of_mem_keys hmem
      obtain heq | hrest := mem_put hx
      · exact hk (Prod.mk.inj heq).1
      · exact h.1 (mem_keys_of_mem hrest)

theorem put_of_not_mem (h : key ∉ keys entries) :
    put entries key value = entries ++ [(key, value)] := by
  induction entries with
  | nil => rfl
  | cons first rest ih =>
    obtain ⟨k, w⟩ := first
    rw [keys_cons, List.mem_cons, not_or] at h
    rw [put, if_neg (Ne.symm h.1), ih h.2, List.cons_append]

/-- An entry behind others of other names is overwritten in its place. -/
theorem put_append_singleton (h : key ∉ keys entries) (v : α) :
    put (entries ++ [(key, v)]) key value = entries ++ [(key, value)] := by
  induction entries with
  | nil => simp [put]
  | cons first rest ih =>
    obtain ⟨k, w⟩ := first
    rw [keys_cons, List.mem_cons, not_or] at h
    rw [List.cons_append, put, if_neg (Ne.symm h.1), ih h.2, List.cons_append]

/-- Without a name that occurs twice, the entry that is written stands for all of its name. -/
theorem perm_put (h : (keys entries).Nodup) :
    (put entries key value).Perm ((key, value) :: entries.filter fun e => e.1 != key) := by
  induction entries with
  | nil => exact .refl _
  | cons first rest ih =>
    obtain ⟨k, w⟩ := first
    rw [keys_cons, List.nodup_cons] at h
    rw [put, List.filter_cons]
    split
    · next hk =>
      -- the others have other names, so all of them stay
      have hrest : (rest.filter fun e => e.1 != key) = rest := by
        refine List.filter_eq_self.mpr fun e he => ?_
        rw [bne_iff_ne]
        exact fun heq => h.1 (hk ▸ heq ▸ mem_keys_of_mem he)
      simp [hk, hrest]
    · next hk =>
      rw [if_pos (bne_iff_ne.mpr hk)]
      exact ((ih h.2).cons _).trans (.swap _ _ _)

theorem map_put {β : Type} (f : String → α → β) (entries : Entries α) (key : String) (value : α) :
    (put entries key value).map (fun e => (e.1, f e.1 e.2)) =
      put (entries.map fun e => (e.1, f e.1 e.2)) key (f key value) := by
  induction entries with
  | nil => rfl
  | cons first rest ih =>
    obtain ⟨k, w⟩ := first
    rw [put, List.map_cons, put]
    split
    · rfl
    · rw [List.map_cons, ih]

/-! ## Dropping -/

theorem find?_erase_of_ne (entries : Entries α) (h : name ≠ key) :
    find? (erase entries key) name = find? entries name := by
  induction entries with
  | nil => rfl
  | cons first rest ih =>
    obtain ⟨k, w⟩ := first
    rw [erase]
    split
    · next hk => rw [find?, if_neg (hk ▸ h.symm)]
    · rw [find?, find?, ih]

theorem map_erase {β : Type} (f : String → α → β) (entries : Entries α) (key : String) :
    (erase entries key).map (fun e => (e.1, f e.1 e.2)) =
      erase (entries.map fun e => (e.1, f e.1 e.2)) key := by
  induction entries with
  | nil => rfl
  | cons first rest ih =>
    obtain ⟨k, w⟩ := first
    rw [erase, List.map_cons, erase]
    split
    · rfl
    · rw [List.map_cons, ih]

theorem mem_of_mem_erase {e : String × α} (h : e ∈ erase entries key) : e ∈ entries := by
  induction entries with
  | nil => cases h
  | cons first rest ih =>
    obtain ⟨k, w⟩ := first
    rw [erase] at h
    split at h
    · exact List.mem_cons_of_mem _ h
    · obtain rfl | hrest := List.mem_cons.mp h
      · exact List.mem_cons_self
      · exact List.mem_cons_of_mem _ (ih hrest)

theorem erase_of_not_mem (h : key ∉ keys entries) : erase entries key = entries := by
  induction entries with
  | nil => rfl
  | cons first rest ih =>
    obtain ⟨k, w⟩ := first
    rw [keys_cons, List.mem_cons, not_or] at h
    rw [erase, if_neg (Ne.symm h.1), ih h.2]

/-- Where no name occurs twice, all entries with another name are left. -/
theorem erase_eq_filter (h : (keys entries).Nodup) :
    erase entries key = entries.filter fun e => e.1 != key := by
  induction entries with
  | nil => rfl
  | cons first rest ih =>
    obtain ⟨k, w⟩ := first
    rw [keys_cons, List.nodup_cons] at h
    rw [erase, List.filter_cons]
    split
    · next hk =>
      have hrest : erase rest key = rest := erase_of_not_mem (hk ▸ h.1)
      rw [ih h.2] at hrest
      simp [hk, hrest]
    · next hk => rw [if_pos (bne_iff_ne.mpr hk), ih h.2]

theorem nodup_keys_erase (h : (keys entries).Nodup) : (keys (erase entries key)).Nodup := by
  induction entries with
  | nil => exact h
  | cons first rest ih =>
    obtain ⟨k, w⟩ := first
    rw [keys_cons, List.nodup_cons] at h
    rw [erase]
    split
    · exact h.2
    · -- nothing that is left behind the first entry is new
      rw [keys_cons, List.nodup_cons]
      refine ⟨fun hmem => ?_, ih h.2⟩
      obtain ⟨x, hx⟩ := exists_mem_of_mem_keys hmem
      exact h.1 (mem_keys_of_mem (mem_of_mem_erase hx))

/-- Dropping a name keeps the other entries. -/
theorem mem_erase_of_ne (hne : name ≠ key) (h : (name, v) ∈ entries) :
    (name, v) ∈ erase entries key := by
  induction entries with
  | nil => cases h
  | cons first rest ih =>
    obtain ⟨k, w⟩ := first
    rw [erase]
    obtain heq | hrest := List.mem_cons.mp h
    · cases heq
      rw [if_neg hne]
      exact List.mem_cons_self
    · split
      · exact hrest
      · exact List.mem_cons_of_mem _ (ih hrest)

/-- Where no name occurs twice, a name that is dropped is gone. -/
theorem not_mem_keys_erase (hnodup : (keys entries).Nodup) : key ∉ keys (erase entries key) := by
  induction entries with
  | nil => exact List.not_mem_nil
  | cons first rest ih =>
    obtain ⟨k, w⟩ := first
    rw [keys_cons, List.nodup_cons] at hnodup
    rw [erase]
    split
    · next hk => exact hk ▸ hnodup.1
    · next hk =>
      rw [keys_cons, List.mem_cons, not_or]
      exact ⟨Ne.symm hk, ih hnodup.2⟩

/-! ## Entries of a text -/

private theorem mem_putAll {more : Entries α} {e : String × α} (h : e ∈ putAll entries more) :
    e ∈ entries ∨ e ∈ more := by
  induction more generalizing entries with
  | nil => exact .inl h
  | cons first rest ih =>
    -- the first entry is written before the others
    obtain hput | hrest := ih h
    · obtain rfl | hentries := mem_put hput
      · exact .inr List.mem_cons_self
      · exact .inl hentries
    · exact .inr (List.mem_cons_of_mem _ hrest)

private theorem nodup_keys_putAll {more : Entries α} (h : (keys entries).Nodup) :
    (keys (putAll entries more)).Nodup := by
  induction more generalizing entries with
  | nil => exact h
  | cons first rest ih => exact ih (nodup_keys_put h)

/-- Only entries that are written in a text are read from it. -/
theorem mem_of_mem_ofList {written : Entries α} {e : String × α} (h : e ∈ ofList written) :
    e ∈ written := by
  obtain hnil | hwritten := mem_putAll h
  · cases hnil
  · exact hwritten

/-- Entries that are read from a text have each name once. -/
theorem nodup_keys_ofList (written : Entries α) : (keys (ofList written)).Nodup :=
  nodup_keys_putAll List.nodup_nil

/-! ## Entries over others -/

theorem find?_append (entries more : Entries α) (name : String) :
    find? (entries ++ more) name = (find? entries name).or (find? more name) := by
  induction entries with
  | nil => rfl
  | cons e rest ih =>
    obtain ⟨k, w⟩ := e
    rw [List.cons_append, find?, find?]
    split
    · rfl
    · exact ih

/-- An entry of a new name behind others is found under its name only. -/
theorem find?_append_singleton (v : α) (hname : name ∉ keys entries) (key : String) :
    find? (entries ++ [(name, v)]) key = if name = key then some v else find? entries key := by
  rw [find?_append, find?, find?]
  split
  · next hkey => rw [← hkey, find?_eq_none_iff.mpr hname, Option.none_or]
  · rw [Option.or_none]

theorem find?_filter (p : String → Bool) (entries : Entries α) (name : String) :
    find? (entries.filter fun e => p e.1) name = if p name then find? entries name else none := by
  induction entries with
  | nil => simp [find?]
  | cons e rest ih =>
    obtain ⟨k, w⟩ := e
    by_cases hk : k = name
    · subst hk
      cases hp : p k <;> simp [hp, find?, ih]
    · cases hp : p k <;> simp [hp, find?, hk, ih]

/-- The entries with the values that others of their names have, and behind them those others of
    which the name is new. -/
def merge (entries more : Entries α) : Entries α :=
  entries.map (fun e => (e.1, (find? more e.1).getD e.2)) ++ more.filter fun e => !has entries e.1

theorem merge_nil (entries : Entries α) : merge entries [] = entries := by
  simp [merge, find?]

theorem nil_merge (more : Entries α) : merge [] more = more := by
  simp [merge, has, find?]

theorem find?_merge (entries more : Entries α) (name : String) :
    find? (merge entries more) name = (find? more name).or (find? entries name) := by
  have hmap := find?_map (fun name v => (find? more name).getD v) entries name
  rw [merge, find?_append, hmap, find?_filter fun k => !has entries k, has]
  cases find? entries name <;> cases find? more name <;> rfl

theorem has_merge (entries more : Entries α) (name : String) :
    has (merge entries more) name = (has entries name || has more name) := by
  rw [has, find?_merge, Option.isSome_or, Bool.or_comm]
  rfl

theorem merge_assoc (a b c : Entries α) : merge (merge a b) c = merge a (merge b c) := by
  have hvalue : ∀ e : String × α, (find? (merge b c) e.1).getD e.2 =
      (find? c e.1).getD ((find? b e.1).getD e.2) := by
    intro e
    rw [find?_merge]
    cases find? c e.1 <;> rfl
  have hfresh : ∀ e : String × α, (!has (merge a b) e.1) = (!has a e.1 && !has b e.1) := by
    intro e
    rw [has_merge, Bool.not_or]
  have hright : merge a (merge b c) =
      a.map (fun e => (e.1, (find? (merge b c) e.1).getD e.2)) ++
        (merge b c).filter fun e => !has a e.1 := rfl
  rw [hright, merge]
  simp only [hvalue, hfresh]
  simp only [merge, List.map_append, List.map_map, List.filter_append, List.filter_map,
    List.filter_filter, List.append_assoc]
  rfl

/-- An entry that is written takes the place of the one of its name, or the place behind all. -/
theorem put_eq_merge (h : (keys entries).Nodup) :
    put entries key value = merge entries [(key, value)] := by
  induction entries with
  | nil => rw [nil_merge, put]
  | cons first rest ih =>
    obtain ⟨k, w⟩ := first
    rw [keys_cons, List.nodup_cons] at h
    rw [put]
    split
    · next hk =>
      -- none of the others has the name
      have hrest : ∀ e ∈ rest, (e.1, (find? [(key, value)] e.1).getD e.2) = e := by
        intro e he
        have hne : key ≠ e.1 := fun heq => h.1 (hk ▸ heq ▸ mem_keys_of_mem he)
        simp [find?, hne]
      rw [merge, List.map_cons, List.map_congr_left hrest]
      simp [find?, has, hk]
    · next hk =>
      rw [ih h.2]
      simp [merge, find?, has, List.filter_cons, hk, Ne.symm hk]

/-- A new name in front of others stays in front of them. -/
theorem singleton_merge (h : name ∉ keys entries) :
    merge [(name, v)] entries = (name, v) :: entries := by
  have hnew : ∀ e ∈ entries, (!has [(name, v)] e.1) = true := by
    intro e he
    have hne : name ≠ e.1 := fun heq => h (heq ▸ mem_keys_of_mem he)
    simp [has, find?, hne]
  rw [merge, List.filter_eq_self.mpr hnew]
  simp [find?_eq_none_iff.mpr h]

/-- Writing many entries overrides those of their names and adds the others behind them.  The
    induction is on the entries that are written, each of which is merged in turn. -/
theorem putAll_eq_merge {more : Entries α} (h : (keys entries).Nodup) (hmore : (keys more).Nodup) :
    putAll entries more = merge entries more := by
  induction more generalizing entries with
  | nil => exact (merge_nil entries).symm
  | cons first rest ih =>
    obtain ⟨k, w⟩ := first
    rw [keys_cons, List.nodup_cons] at hmore
    show putAll (put entries k w) rest = _
    rw [ih (nodup_keys_put h) hmore.2, put_eq_merge h, merge_assoc, singleton_merge hmore.1]

/-- Entries without a name that is written twice are read as they stand. -/
theorem ofList_eq_self (h : (keys entries).Nodup) : ofList entries = entries := by
  have hnil : (keys ([] : Entries α)).Nodup := List.nodup_nil
  rw [ofList, putAll_eq_merge hnil h, nil_merge]

end ShellQuery.Entries
