import Mathlib.Data.List.Forall2
import ShellQuery.Proofs.Bson.Leaves
import ShellQuery.Proofs.Entries
import ShellQuery.Proofs.Outcome

/-!
# Documents and wrappers

An object of Extended JSON is a document or a wrapper, never both: the reader of a wrapper does not
return a document.  So an object that is read as a document is read member by member, and the
document has the names of the object in their order.
-/

namespace ShellQuery

namespace Bson

/-! ## Wrappers -/

/-- The names of all wrappers in the order in which they are looked for. -/
def wrapperNames : List String :=
  firstWrappers.map Prod.fst ++ "$code" :: lastWrappers.map Prod.fst

/-- An object that is no wrapper: it has none of their names. -/
def IsPlain {α : Type} (entries : Entries α) : Prop :=
  ∀ name ∈ wrapperNames, name ∉ Entries.keys entries

/-- What is read as program text holds no other value, or holds the scope. -/
theorem stored_or_scope_of_readCode {entries : Entries Json} {scope : Option Bson} {b : Bson}
    (h : readCode entries scope = some b) :
    b.IsStored ∨
      ∃ text fields, b = .codeWithScope text fields ∧ scope = some (.document fields) := by
  unfold readCode at h
  split at h
  · split at h
    · cases h
      exact .inl trivial
    · cases h
      exact .inl trivial
    · split at h
      · cases h
        exact .inr ⟨_, _, rfl, rfl⟩
      · cases h
    · cases h
  · cases h

/-- The reader that is found is one of the list. -/
theorem isStored_of_wrapper? {wrappers : List (String × (Entries Json → Option Bson))}
    (hwrappers : ∀ w ∈ wrappers, ReadsStored w.2) {entries : Entries Json}
    {read : Entries Json → Option Bson} (hread : wrapper? wrappers entries = some read) {b : Bson}
    (h : read entries = some b) : b.IsStored := by
  obtain ⟨w, hw, rfl⟩ := Option.map_eq_some_iff.mp hread
  exact hwrappers w (List.mem_of_find?_eq_some hw) entries b h

/-- None of the wrappers is found exactly where the object has none of their names. -/
theorem wrapper?_eq_none_iff {wrappers : List (String × (Entries Json → Option Bson))}
    {entries : Entries Json} :
    wrapper? wrappers entries = none ↔
      ∀ name ∈ wrappers.map Prod.fst, name ∉ Entries.keys entries := by
  simp [wrapper?, Entries.has, ← Entries.find?_eq_none_iff]

theorem isPlain_iff {entries : Entries Json} :
    IsPlain entries ↔ wrapper? firstWrappers entries = none ∧
      Entries.has entries "$code" = false ∧ wrapper? lastWrappers entries = none := by
  rw [IsPlain, wrapperNames, List.forall_mem_append, List.forall_mem_cons, wrapper?_eq_none_iff,
    wrapper?_eq_none_iff, ← Entries.find?_eq_none_iff, Entries.has, Option.isSome_eq_false_iff,
    Option.isNone_iff_eq_none]

/-- An object that is no wrapper is read member by member. -/
theorem ofJson?_of_isPlain {entries : Entries Json} (h : IsPlain entries) :
    ofJson? (.obj entries) = (ofFields? entries).map document := by
  obtain ⟨hfirst, hcode, hlast⟩ := isPlain_iff.mp h
  rw [ofJson?, hfirst, hcode, hlast]
  rfl

/-- An object is read as a value that holds no other values, as program text with a scope, or member
    by member when it has none of the names of wrappers. -/
theorem ofJson?_obj_cases {entries : Entries Json} {b : Bson}
    (h : ofJson? (.obj entries) = some b) :
    b.IsStored ∨
      (∃ text scope, b = .codeWithScope text scope ∧
        ofScope? entries = some (.document scope)) ∨
      IsPlain entries ∧ ∃ fields, b = .document fields ∧ ofFields? entries = some fields := by
  -- the order of the reader: the first wrappers, program text, the last wrappers, and members
  rw [ofJson?] at h
  split at h
  · next read hread =>
    exact .inl (isStored_of_wrapper? readsStored_firstWrappers hread h)
  · next hfirst =>
    split at h
    · obtain hleaf | hscope := stored_or_scope_of_readCode h
      · exact .inl hleaf
      · exact .inr (.inl hscope)
    · next hcode =>
      split at h
      · next read hread =>
        exact .inl (isStored_of_wrapper? readsStored_lastWrappers hread h)
      · next hlast =>
        obtain ⟨fields, hfields, rfl⟩ := Option.map_eq_some_iff.mp h
        have hplain := isPlain_iff.mpr ⟨hfirst, Bool.eq_false_iff.mpr hcode, hlast⟩
        exact .inr (.inr ⟨hplain, fields, rfl, hfields⟩)

/-! ## Documents -/

/-- An object that is read as a document is read member by member. -/
theorem ofFields?_of_document {entries : Entries Json} {fields : Document}
    (h : ofJson? (.obj entries) = some (.document fields)) : ofFields? entries = some fields := by
  obtain hleaf | ⟨_, _, hcode, -⟩ | ⟨-, found, hdocument, hfound⟩ := ofJson?_obj_cases h
  · exact hleaf.elim
  · cases hcode
  · cases hdocument
    exact hfound

/-- Reading members keeps their names in order. -/
theorem keys_of_ofFields? {entries : Entries Json} {fields : Document}
    (h : ofFields? entries = some fields) : Entries.keys fields = Entries.keys entries := by
  induction entries generalizing fields with
  | nil =>
    cases h
    rfl
  | cons entry rest ih =>
    obtain ⟨name, item⟩ := entry
    rw [ofFields?] at h
    split at h
    · obtain ⟨more, hmore, rfl⟩ := Option.map_eq_some_iff.mp h
      rw [Entries.keys_cons, Entries.keys_cons, ih hmore]
    · cases h

/-- A member of a document is read from the member of its name. -/
theorem mem_of_ofFields? {entries : Entries Json} {fields : Document}
    (h : ofFields? entries = some fields) {name : String} {b : Bson} (hmem : (name, b) ∈ fields) :
    ∃ v, (name, v) ∈ entries ∧ ofJson? v = some b := by
  induction entries generalizing fields with
  | nil =>
    cases h
    cases hmem
  | cons entry rest ih =>
    obtain ⟨k, item⟩ := entry
    rw [ofFields?] at h
    split at h
    · next value hvalue =>
      obtain ⟨more, hmore, rfl⟩ := Option.map_eq_some_iff.mp h
      obtain heq | hrest := List.mem_cons.mp hmem
      · cases heq
        exact ⟨item, List.mem_cons_self, hvalue⟩
      · obtain ⟨v, hv, hread⟩ := ih hmore hrest
        exact ⟨v, List.mem_cons_of_mem _ hv, hread⟩
    · cases h

/-- Looking up a member of a document is reading the member of the object. -/
theorem find?_of_ofFields? {entries : Entries Json} {fields : Document}
    (h : ofFields? entries = some fields) (name : String) :
    Entries.find? fields name = (Entries.find? entries name).bind ofJson? := by
  induction entries generalizing fields with
  | nil =>
    cases h
    rfl
  | cons entry rest ih =>
    obtain ⟨k, item⟩ := entry
    rw [ofFields?] at h
    split at h
    · next value hvalue =>
      obtain ⟨more, hmore, rfl⟩ := Option.map_eq_some_iff.mp h
      rw [Entries.find?, Entries.find?, ih hmore]
      split
      · exact hvalue.symm
      · rfl
    · cases h

/-- Each member of an object is read, and nothing else is in the document. -/
theorem rel_find?_of_ofFields? {entries : Entries Json} {fields : Document}
    (h : ofFields? entries = some fields) (name : String) :
    Option.Rel (fun v b => ofJson? v = some b) (Entries.find? entries name)
      (Entries.find? fields name) := by
  have hfound := find?_of_ofFields? h name
  cases hentry : Entries.find? entries name with
  | none =>
    rw [hfound, hentry]
    exact .none
  | some v =>
    rw [hentry, Option.bind_some] at hfound
    cases hread : ofJson? v with
    | some b =>
      rw [hfound, hread]
      exact .some hread
    | none =>
      -- the name would be missing in the document
      rw [hread, Entries.find?_eq_none_iff, keys_of_ofFields? h] at hfound
      exact absurd (Entries.mem_keys_of_mem (Entries.mem_of_find? hentry)) hfound

/-- Items of an array are read one by one. -/
theorem mem_of_ofItems? {items : List Json} {values : List Bson}
    (h : ofItems? items = some values) {b : Bson} (hmem : b ∈ values) :
    ∃ v ∈ items, ofJson? v = some b := by
  induction items generalizing values with
  | nil =>
    cases h
    cases hmem
  | cons item rest ih =>
    rw [ofItems?] at h
    split at h
    · next value hvalue =>
      obtain ⟨more, hmore, rfl⟩ := Option.map_eq_some_iff.mp h
      obtain rfl | hrest := List.mem_cons.mp hmem
      · exact ⟨item, List.mem_cons_self, hvalue⟩
      · obtain ⟨v, hv, hread⟩ := ih hmore hrest
        exact ⟨v, List.mem_cons_of_mem _ hv, hread⟩
    · cases h

theorem convert_eq_ok_iff {v : Json} {b : Bson} : convert v = .ok b ↔ ofJson? v = some b := by
  unfold convert
  cases ofJson? v <;> simp

end Bson

namespace Document

open Outcome

/-- A document is converted from a value that is read as one. -/
theorem convert_eq_ok_iff {v : Json} {d : Document} :
    convert v = .ok d ↔ Bson.ofJson? v = some (.document d) := by
  unfold convert Bson.convert
  rw [bind_eq_ok_iff]
  cases hread : Bson.ofJson? v with
  | none => simp
  | some value => cases value <;> simp

/-- Only an object is converted to a document, and member by member. -/
theorem exists_fields_of_convert {v : Json} {d : Document} (h : convert v = .ok d) :
    ∃ entries, v = .obj entries ∧ Bson.ofFields? entries = some d := by
  rw [convert_eq_ok_iff] at h
  cases v with
  | obj entries => exact ⟨entries, rfl, Bson.ofFields?_of_document h⟩
  | arr items =>
    rw [Bson.ofJson?] at h
    obtain ⟨_, -, hvalue⟩ := Option.map_eq_some_iff.mp h
    cases hvalue
  | int i =>
    rw [Bson.ofJson?] at h
    split at h
    · rw [Bson.ofInt] at h
      split at h <;> cases h
    · split at h <;> cases h
  | null | bool | float | str => cases h

/-- The document of an object has the names of the object. -/
theorem keys_of_convert {entries : Entries Json} {d : Document}
    (h : convert (.obj entries) = .ok d) : Entries.keys d = Entries.keys entries :=
  Bson.keys_of_ofFields? (Bson.ofFields?_of_document (convert_eq_ok_iff.mp h))

/-- Only the empty object is converted to the empty document. -/
theorem eq_nil_iff_of_convert {entries : Entries Json} {d : Document}
    (h : convert (.obj entries) = .ok d) : d = [] ↔ entries = [] := by
  -- the names are the same, so there are as many of them
  have hlength := congrArg List.length (keys_of_convert h)
  simp only [Entries.keys, List.length_map] at hlength
  rw [← List.length_eq_zero_iff, ← List.length_eq_zero_iff, hlength]

theorem convertAll_singleton {v : Json} {d : Document} (h : convert v = .ok d) :
    convertAll [v] = .ok [d] := by
  rw [convertAll, h]
  rfl

/-- Documents are converted one by one. -/
theorem convertAll_eq_ok_iff {items : List Json} {documents : List Document} :
    convertAll items = .ok documents ↔
      List.Forall₂ (fun v d => convert v = .ok d) items documents := by
  induction items generalizing documents with
  | nil => simp [convertAll, eq_comm]
  | cons v rest ih =>
    rw [convertAll, List.forall₂_cons_left_iff]
    simp only [bind_eq_ok_iff, ih]
    constructor
    · rintro ⟨first, hfirst, others, hothers, h⟩
      cases h
      exact ⟨first, others, hfirst, hothers, rfl⟩
    · rintro ⟨first, others, hfirst, hothers, rfl⟩
      exact ⟨first, hfirst, others, hothers, rfl⟩

theorem length_of_convertAll {items : List Json} {documents : List Document}
    (h : convertAll items = .ok documents) : documents.length = items.length :=
  (convertAll_eq_ok_iff.mp h).length_eq.symm

theorem mem_of_convertAll {items : List Json} {documents : List Document}
    (h : convertAll items = .ok documents) {d : Document} (hd : d ∈ documents) :
    ∃ v ∈ items, convert v = .ok d := by
  obtain ⟨index, hindex, rfl⟩ := List.mem_iff_getElem.mp hd
  have hconverted := convertAll_eq_ok_iff.mp h
  have hindex' : index < items.length := hconverted.length_eq ▸ hindex
  exact ⟨items[index], List.getElem_mem hindex', hconverted.get hindex' hindex⟩

/-- Items that can be converted one by one can be converted together. -/
theorem exists_convertAll {items : List Json} (h : ∀ v ∈ items, ∃ d, convert v = .ok d) :
    ∃ documents, convertAll items = .ok documents := by
  induction items with
  | nil => exact ⟨[], rfl⟩
  | cons v rest ih =>
    obtain ⟨⟨first, hfirst⟩, hrest⟩ := List.forall_mem_cons.mp h
    obtain ⟨others, hothers⟩ := ih hrest
    exact ⟨first :: others,
      convertAll_eq_ok_iff.mpr (.cons hfirst (convertAll_eq_ok_iff.mp hothers))⟩

end Document

end ShellQuery
