import ShellQuery.Proofs.Bson.Documents
import ShellQuery.Proofs.Bson.Updates

/-!
# Operators of updates

The operators of an update are converted as they are given, whatever their values: a value that the
store does not take for an operator is left for the store to turn down.  `$set` is the exception, as
it takes the plain fields of the update in.  A `$set` whose value is no object sets no fields, and
what it is given is lost: the update has a `$set` of the plain fields in its place.

The main statement is `operators_kept_iff`.
-/

namespace ShellQuery.UpdateSpec

variable {spec : Entries Json} {update : Document} {name : String} {v : Json}

/-! ## The normal form by names -/

/-- Under any other name than `$set` stands what the update gives for the operator. -/
theorem find?_setForm_of_ne (hne : name ≠ "$set") :
    Entries.find? (setForm spec) name =
      if isOperator name then Entries.find? spec name else none := by
  have hoperators : Entries.find? (operators spec) name =
      if isOperator name then Entries.find? spec name else none := by
    rw [operators, Entries.find?_filter fun k => isOperator k && k != "$set"]
    simp [hne]
  rw [setForm, Entries.find?_append, ← hoperators]
  split
  · simp [Entries.find?, hne.symm]
  · simp [Entries.find?]

/-- Under `$set` stand the fields that it sets and the plain fields. -/
theorem find?_setForm_set (h : Entries.find? spec "$set" = some v) :
    Entries.find? (setForm spec) "$set" =
      some (.obj (Entries.merge (setFields spec) (plainFields spec))) := by
  have hoperators : Entries.find? (operators spec) "$set" = none :=
    find?_set_eq_none fun e he => (mem_operators_iff.mp he).2.2
  have hhas : Entries.has spec "$set" = true := by rw [Entries.has, h, Option.isSome_some]
  rw [setForm, Entries.find?_append, hoperators, Option.none_or, if_pos (.inl hhas)]
  rfl

theorem setFields_eq_nil (h : Entries.find? spec "$set" = some v) (hv : v.entries? = none) :
    setFields spec = [] := by
  rw [setFields, h]
  cases v with
  | obj => cases hv
  | null | bool | int | float | str | arr => rfl

/-- Plain fields are no wrapper, as all names of wrappers are names of operators. -/
theorem isPlain_plainFields (spec : Entries Json) : Bson.IsPlain (plainFields spec) := by
  have hoperators : ∀ name ∈ Bson.wrapperNames, isOperator name = true := by decide
  intro name hname hmem
  obtain ⟨v, hv⟩ := Entries.exists_mem_of_mem_keys hmem
  have hplain := (List.mem_filter.mp hv).2
  rw [hoperators name hname] at hplain
  cases hplain

/-! ## Conversion -/

/-- The update has what its normal form is read as, member by member. -/
theorem rel_find?_of_convert (hwf : (Json.obj spec).WellFormed)
    (h : convert (.obj spec) = .ok update) (name : String) :
    Option.Rel (fun v b => Bson.convert v = .ok b) (Entries.find? (setForm spec) name)
      (Entries.find? update name) := by
  rw [convert_eq hwf, Document.convert_eq_ok_iff] at h
  simp only [Bson.convert_eq_ok_iff]
  exact Bson.rel_find?_of_ofFields? (Bson.ofFields?_of_document h) name

/-- Operators other than `$set` are converted as they are given. -/
theorem rel_find?_operator (hwf : (Json.obj spec).WellFormed)
    (h : convert (.obj spec) = .ok update) (hoperator : isOperator name = true)
    (hne : name ≠ "$set") :
    Option.Rel (fun v b => Bson.convert v = .ok b) (Entries.find? spec name)
      (Entries.find? update name) := by
  have hrel := rel_find?_of_convert hwf h name
  rwa [find?_setForm_of_ne hne, if_pos hoperator] at hrel

/-- A `$set` that is no object is replaced by one of the plain fields. -/
theorem exists_set_of_not_object (hwf : (Json.obj spec).WellFormed)
    (h : convert (.obj spec) = .ok update) (hfind : Entries.find? spec "$set" = some v)
    (hv : v.entries? = none) :
    ∃ fields, Document.convert (.obj (plainFields spec)) = .ok fields ∧
      Entries.find? update "$set" = some (.document fields) := by
  have hrel := rel_find?_of_convert hwf h "$set"
  rw [find?_setForm_set hfind, setFields_eq_nil hfind hv, Entries.nil_merge] at hrel
  generalize Entries.find? update "$set" = found at hrel
  cases hrel with
  | some hread =>
    rw [Bson.convert_eq_ok_iff, Bson.ofJson?_of_isPlain (isPlain_plainFields spec)] at hread
    obtain ⟨fields, hfields, rfl⟩ := Option.map_eq_some_iff.mp hread
    refine ⟨fields, ?_, rfl⟩
    rw [Document.convert_eq_ok_iff, Bson.ofJson?_of_isPlain (isPlain_plainFields spec), hfields,
      Option.map_some]

/-- Only an object is converted to a document. -/
theorem convert_ne_document (hv : v.entries? = none) (fields : Document) :
    Bson.convert v ≠ .ok (.document fields) := by
  intro h
  rw [Bson.convert_eq_ok_iff, ← Document.convert_eq_ok_iff] at h
  obtain ⟨entries, rfl, -⟩ := Document.exists_fields_of_convert h
  cases hv

/-! ## Main result -/

/-- An update that is accepted has the conversion of each operator other than `$set`, whatever its
    value, and of no others.  A `$set` whose value is no object becomes one of the plain fields, so
    operators with such values are all kept exactly when `$set` is not among them. -/
theorem operators_kept_iff {spec : Entries Json} {update : Document}
    (hwf : (Json.obj spec).WellFormed) (h : convert (.obj spec) = .ok update) :
    (∀ name, isOperator name = true → name ≠ "$set" →
      Option.Rel (fun v b => Bson.convert v = .ok b) (Entries.find? spec name)
        (Entries.find? update name)) ∧
    (∀ v, Entries.find? spec "$set" = some v → v.entries? = none →
      ∃ fields, Document.convert (.obj (plainFields spec)) = .ok fields ∧
        Entries.find? update "$set" = some (.document fields)) ∧
    ((∀ name v, isOperator name = true → Entries.find? spec name = some v → v.entries? = none →
        ∃ b, Bson.convert v = .ok b ∧ Entries.find? update name = some b) ↔
      ∀ v, Entries.find? spec "$set" = some v → v.entries? ≠ none) := by
  refine ⟨fun name hoperator hne => rel_find?_operator hwf h hoperator hne,
    fun v hfind hv => exists_set_of_not_object hwf h hfind hv, ?_, ?_⟩
  · intro hkept v hfind hv
    obtain ⟨b, hconvert, hb⟩ := hkept "$set" v (by decide) hfind hv
    -- what stands there is a document, and the value is converted to something else
    obtain ⟨fields, -, hfields⟩ := exists_set_of_not_object hwf h hfind hv
    rw [hfields] at hb
    cases hb
    exact convert_ne_document hv fields hconvert
  · intro hset name v hoperator hfind hv
    have hne : name ≠ "$set" := by
      rintro rfl
      exact hset v hfind hv
    have hrel := rel_find?_operator hwf h hoperator hne
    rw [hfind] at hrel
    generalize Entries.find? update name = found at hrel ⊢
    cases hrel with
    | some hconvert => exact ⟨_, hconvert, rfl⟩

/-- An ill-formed operator is kept beside an ill-formed `$set`, which is replaced. -/
theorem operators_kept_iff_ill_formed :
    let spec : Entries Json := [("$inc", .int 5), ("a", .int 1), ("$set", .str "x")]
    let update : Document := [("$inc", .int32 5), ("$set", .document [("a", .int32 1)])]
    (Json.obj spec).WellFormed ∧ convert (.obj spec) = .ok update ∧
      Option.Rel (fun v b => Bson.convert v = .ok b) (some (Json.int 5)) (some (Bson.int32 5)) ∧
      (∃ fields, Document.convert (.obj [("a", .int 1)]) = .ok fields ∧
        Entries.find? update "$set" = some (.document fields)) ∧
      ¬ ∀ name v, isOperator name = true → Entries.find? spec name = some v → v.entries? = none →
        ∃ b, Bson.convert v = .ok b ∧ Entries.find? update name = some b := by
  intro spec update
  have hwf : (Json.obj spec).WellFormed := by
    simp [spec, Json.wellFormed_obj_iff, Entries.keys, Json.WellFormed.int, Json.WellFormed.str]
  have hconvert : convert (.obj spec) = .ok update := by rfl
  obtain ⟨hother, hset, hall⟩ := operators_kept_iff hwf hconvert
  exact ⟨hwf, hconvert, hother "$inc" (by decide) (by decide), hset (.str "x") rfl rfl,
    fun hkept => hall.mp hkept (.str "x") rfl rfl⟩

/-- A `$set` that is a number becomes one without fields. -/
theorem ill_formed_set_replaced :
    convert (.obj [("$set", .int 5)]) = .ok [("$set", .document [])] ∧
      isOperator "$set" = true ∧ (Json.int 5).entries? = none ∧
      ¬ ∃ b, Bson.convert (.int 5) = .ok b ∧
        Entries.find? [("$set", Bson.document [])] "$set" = some b := by
  refine ⟨rfl, by decide, rfl, ?_⟩
  rintro ⟨b, hconvert, hfind⟩
  cases hfind
  cases hconvert

end ShellQuery.UpdateSpec
