import ShellQuery.Bson.Convert
import ShellQuery.Proofs.Json.WellFormed

/-!
# The normal form of updates

An update names operators and plain fields, in any order.  Its normal form has the operators in
front and all plain fields under `$set` behind them, over the fields that `$set` sets already.
`setForm` says so without writing any entry.  Conversion works with the same entries
(`normalForm_eq_setForm`), and so does one pass over the update that writes each entry to its side
(`gather_eq_normalForm`).

The main statement is `convert_computes_setForm`.
-/

namespace ShellQuery.UpdateSpec

variable {spec spec' : Entries Json}

/-! ## The form -/

/-- The operators other than `$set`, and then `$set` with the fields that it sets and the plain
    fields, unless there is neither a `$set` nor a plain field. -/
def setForm (spec : Entries Json) : Entries Json :=
  operators spec ++
    if Entries.has spec "$set" ∨ plainFields spec ≠ [] then
      [("$set", .obj (Entries.merge (setFields spec) (plainFields spec)))]
    else []

/-- An update in normal form: operators only, of which `$set` stands last and sets fields. -/
inductive IsNormal : Entries Json → Prop where
  | withoutSet {spec : Entries Json}
      (h : ∀ e ∈ spec, isOperator e.1 = true ∧ e.1 ≠ "$set") : IsNormal spec
  | withSet {front fields : Entries Json}
      (h : ∀ e ∈ front, isOperator e.1 = true ∧ e.1 ≠ "$set") :
      IsNormal (front ++ [("$set", .obj fields)])

theorem mem_operators_iff {e : String × Json} :
    e ∈ operators spec ↔ e ∈ spec ∧ isOperator e.1 = true ∧ e.1 ≠ "$set" := by
  rw [operators, List.mem_filter, Bool.and_eq_true, bne_iff_ne]

theorem isNormal_setForm (spec : Entries Json) : IsNormal (setForm spec) := by
  have hfront : ∀ e ∈ operators spec, isOperator e.1 = true ∧ e.1 ≠ "$set" :=
    fun e he => (mem_operators_iff.mp he).2
  rw [setForm]
  split
  · exact .withSet hfront
  · rw [List.append_nil]
    exact .withoutSet hfront

theorem operators_eq_self (h : ∀ e ∈ spec, isOperator e.1 = true ∧ e.1 ≠ "$set") :
    operators spec = spec := by
  refine List.filter_eq_self.mpr fun e he => ?_
  rw [Bool.and_eq_true, bne_iff_ne]
  exact h e he

theorem plainFields_eq_nil (h : ∀ e ∈ spec, isOperator e.1 = true) : plainFields spec = [] := by
  refine List.filter_eq_nil_iff.mpr fun e he => ?_
  rw [h e he]
  decide

theorem find?_set_eq_none (h : ∀ e ∈ spec, e.1 ≠ "$set") : Entries.find? spec "$set" = none := by
  rw [Entries.find?_eq_none_iff]
  intro hmem
  obtain ⟨v, hv⟩ := Entries.exists_mem_of_mem_keys hmem
  exact h _ hv rfl

/-- The normal form of an update in normal form is the update itself. -/
theorem IsNormal.setForm_eq (h : IsNormal spec) : setForm spec = spec := by
  cases h with
  | withoutSet h =>
    have hnone : Entries.find? spec "$set" = none := find?_set_eq_none fun e he => (h e he).2
    rw [setForm, operators_eq_self h, plainFields_eq_nil fun e he => (h e he).1]
    simp [Entries.has, hnone]
  | @withSet front fields h =>
    -- the one `$set` is the last entry, and no plain field is left for it
    have hfind : Entries.find? (front ++ [("$set", .obj fields)]) "$set" = some (.obj fields) := by
      rw [Entries.find?_append, find?_set_eq_none fun e he => (h e he).2]
      rfl
    have hset : setFields (front ++ [("$set", .obj fields)]) = fields := by
      rw [setFields, hfind]
    have hoperators : operators (front ++ [("$set", .obj fields)]) = front := by
      have hset : operators [("$set", .obj fields)] = [] := by simp [operators]
      have happend : operators (front ++ [("$set", .obj fields)]) =
          operators front ++ operators [("$set", .obj fields)] := List.filter_append _ _
      rw [happend, operators_eq_self h, hset, List.append_nil]
    have hplain : plainFields (front ++ [("$set", .obj fields)]) = [] := by
      refine plainFields_eq_nil (List.forall_mem_append.mpr ⟨fun e he => (h e he).1, ?_⟩)
      exact List.forall_mem_singleton.mpr (by decide : isOperator "$set" = true)
    rw [setForm, hoperators, hplain, hset, Entries.merge_nil, Entries.has, hfind]
    simp

theorem setForm_setForm (spec : Entries Json) : setForm (setForm spec) = setForm spec :=
  (isNormal_setForm spec).setForm_eq

/-! ## The order of the entries -/

/-- The normal form does not depend on how operators and plain fields stand among each other. -/
theorem setForm_congr
    (hoperators : (spec'.filter fun e => isOperator e.1) = spec.filter fun e => isOperator e.1)
    (hplain : plainFields spec' = plainFields spec) : setForm spec' = setForm spec := by
  have hfilter : ∀ s, operators s = (s.filter fun e => isOperator e.1).filter (·.1 != "$set") := by
    intro s
    rw [operators, List.filter_filter]
    simp only [Bool.and_comm]
  have hfind : ∀ s : Entries Json, Entries.find? s "$set" =
      Entries.find? (s.filter fun e => isOperator e.1) "$set" := by
    intro s
    rw [Entries.find?_filter isOperator]
    rfl
  rw [setForm, setForm, hfilter, hfilter spec, hoperators, hplain, setFields, setFields,
    Entries.has, Entries.has, hfind, hfind spec, hoperators]

/-! ## Conversion -/

theorem nodup_keys_setFields (hwf : (Json.obj spec).WellFormed) :
    (Entries.keys (setFields spec)).Nodup := by
  rw [setFields]
  split
  · next fields hfind =>
    exact ((Json.wellFormed_obj_iff.mp hwf).2 _ (Entries.mem_of_find? hfind)).nodup_keys
  · exact List.nodup_nil

theorem nodup_keys_plainFields (hwf : (Json.obj spec).WellFormed) :
    (Entries.keys (plainFields spec)).Nodup :=
  hwf.nodup_keys.sublist (List.filter_sublist.map Prod.fst)

theorem normalForm_eq_setForm (hwf : (Json.obj spec).WellFormed) :
    normalForm spec = setForm spec := by
  have hfields : Entries.putAll (setFields spec) (plainFields spec) =
      Entries.merge (setFields spec) (plainFields spec) :=
    Entries.putAll_eq_merge (nodup_keys_setFields hwf) (nodup_keys_plainFields hwf)
  rw [normalForm, setForm, hfields]
  cases hset : Entries.has spec "$set" with
  | true => simp
  | false =>
    -- without a `$set` the fields are the plain ones
    have hnone : setFields spec = [] := by
      rw [Entries.has, Option.isSome_eq_false_iff, Option.isNone_iff_eq_none] at hset
      rw [setFields, hset]
    rw [hnone, Entries.nil_merge]
    cases plainFields spec <;> simp

theorem convert_eq (hwf : (Json.obj spec).WellFormed) :
    convert (.obj spec) = Document.convert (.obj (setForm spec)) := by
  rw [convert, normalForm_eq_setForm hwf]

/-! ## One pass -/

/-- What a pass over the entries of an update has gathered. -/
structure Gathered where
  operators : Entries Json
  fields : Entries Json

/-- Add an entry of an update: an operator is kept and a plain field is set. -/
def Gathered.add (g : Gathered) (e : String × Json) : Gathered :=
  if e.1 = "$set" then g
  else if isOperator e.1 then { g with operators := Entries.put g.operators e.1 e.2 }
  else { g with fields := Entries.put g.fields e.1 e.2 }

/-- The form that is gathered in one pass, which starts with the fields that `$set` sets. -/
def gather (spec : Entries Json) : Entries Json :=
  let g := spec.foldl Gathered.add ⟨[], setFields spec⟩
  if !g.fields.isEmpty || Entries.has spec "$set" then
    Entries.put g.operators "$set" (.obj g.fields)
  else g.operators

theorem operators_cons (e : String × Json) (spec : Entries Json) :
    operators (e :: spec) =
      if isOperator e.1 && e.1 != "$set" then e :: operators spec else operators spec :=
  List.filter_cons

theorem plainFields_cons (e : String × Json) (spec : Entries Json) :
    plainFields (e :: spec) = if !isOperator e.1 then e :: plainFields spec else plainFields spec :=
  List.filter_cons

/-- Operators and plain fields are written each in their order.  The induction is on the entries,
    and each of them is written to one side at most. -/
theorem foldl_add (g : Gathered) (spec : Entries Json) :
    spec.foldl Gathered.add g =
      ⟨Entries.putAll g.operators (operators spec),
        Entries.putAll g.fields (plainFields spec)⟩ := by
  induction spec generalizing g with
  | nil => rfl
  | cons e rest ih =>
    obtain ⟨k, v⟩ := e
    rw [List.foldl_cons, ih, operators_cons, plainFields_cons, Gathered.add]
    by_cases hset : k = "$set"
    · subst hset
      have hoperator : isOperator "$set" = true := by decide
      simp [hoperator]
    · cases isOperator k <;> simp [hset, Entries.putAll]

theorem gather_eq_normalForm (hwf : (Json.obj spec).WellFormed) :
    gather spec = normalForm spec := by
  have hnodup : (Entries.keys (operators spec)).Nodup :=
    hwf.nodup_keys.sublist (List.filter_sublist.map Prod.fst)
  have hset : "$set" ∉ Entries.keys (operators spec) := by
    intro hmem
    obtain ⟨v, hv⟩ := Entries.exists_mem_of_mem_keys hmem
    exact (mem_operators_iff.mp hv).2.2 rfl
  have hoperators : Entries.putAll [] (operators spec) = operators spec :=
    Entries.ofList_eq_self hnodup
  simp only [gather, normalForm, foldl_add, hoperators, Entries.put_of_not_mem hset]

/-! ## Plain fields -/

/-- Plain fields alone are the fields of a `$set`. -/
theorem setForm_of_plain (hne : spec ≠ [])
    (hplain : ∀ name ∈ Entries.keys spec, isOperator name = false) :
    setForm spec = [("$set", .obj spec)] := by
  have hentry : ∀ e ∈ spec, isOperator e.1 = false :=
    fun e he => hplain e.1 (List.mem_map.mpr ⟨e, he, rfl⟩)
  have hfields : plainFields spec = spec :=
    List.filter_eq_self.mpr fun e he => by rw [hentry e he]; rfl
  have hoperators : operators spec = [] :=
    List.filter_eq_nil_iff.mpr fun e he => by simp [hentry e he]
  have hset : setFields spec = [] := by
    have hnone : Entries.find? spec "$set" = none := by
      refine find?_set_eq_none fun e he heq => ?_
      have hfalse := hentry e he
      rw [heq] at hfalse
      exact absurd hfalse (by decide)
    rw [setFields, hnone]
  rw [setForm, hfields, hoperators, hset, Entries.nil_merge, if_pos (.inr hne), List.nil_append]

/-- Plain fields mean the same as a `$set` of them. -/
theorem convert_of_plain (hwf : (Json.obj spec).WellFormed) (hne : spec ≠ [])
    (hplain : ∀ name ∈ Entries.keys spec, isOperator name = false) :
    convert (.obj spec) = convert (.obj [("$set", .obj spec)]) := by
  have hset : (Json.obj [("$set", .obj spec)]).WellFormed := by
    have hname : (Entries.keys [("$set", Json.obj spec)]).Nodup := by simp [Entries.keys]
    exact Json.wellFormed_obj_iff.mpr ⟨hname, List.forall_mem_singleton.mpr hwf⟩
  have hnormal : IsNormal [("$set", .obj spec)] :=
    @IsNormal.withSet [] spec fun _ he => absurd he List.not_mem_nil
  rw [convert_eq hwf, convert_eq hset, hnormal.setForm_eq, setForm_of_plain hne hplain]

/-! ## Main result -/

/-- An update is converted through its normal form, which one pass gathers.  The form is its own
    normal form and depends on the order of the operators and on that of the plain fields only.  An
    update of plain fields alone means the same as a `$set` of them. -/
theorem convert_computes_setForm {spec : Entries Json} (hwf : (Json.obj spec).WellFormed) :
    convert (.obj spec) = Document.convert (.obj (setForm spec)) ∧
    gather spec = setForm spec ∧
    setForm (setForm spec) = setForm spec ∧
    (∀ spec' : Entries Json,
      (spec'.filter fun e => isOperator e.1) = (spec.filter fun e => isOperator e.1) →
      plainFields spec' = plainFields spec → setForm spec' = setForm spec) ∧
    (spec ≠ [] → (∀ name ∈ Entries.keys spec, isOperator name = false) →
      convert (.obj spec) = convert (.obj [("$set", .obj spec)])) :=
  ⟨convert_eq hwf, (gather_eq_normalForm hwf).trans (normalForm_eq_setForm hwf),
    setForm_setForm spec, fun _ => setForm_congr, convert_of_plain hwf⟩

/-- A plain field overrides one that `$set` sets behind it, and keeps its place. -/
theorem convert_computes_setForm_overridden :
    let spec : Entries Json := [("b", .int 2), ("$inc", .obj [("n", .int 1)]),
      ("$set", .obj [("a", .int 1), ("b", .int 1)]), ("a", .int 3), ("c", .int 4)]
    let form : Entries Json := [("$inc", .obj [("n", .int 1)]),
      ("$set", .obj [("a", .int 3), ("b", .int 2), ("c", .int 4)])]
    convert (.obj spec) = Document.convert (.obj form) ∧
      setForm [("$inc", .obj [("n", .int 1)]), ("b", .int 2), ("a", .int 3), ("c", .int 4),
        ("$set", .obj [("a", .int 1), ("b", .int 1)])] = form ∧
      convert (.obj [("a", .int 1)]) = convert (.obj [("$set", .obj [("a", .int 1)])]) := by
  intro spec form
  have hwf : (Json.obj spec).WellFormed := by
    simp [spec, Json.wellFormed_obj_iff, Entries.keys, Json.WellFormed.int]
  have hplain : (Json.obj [("a", .int 1)]).WellFormed := by
    simp [Json.wellFormed_obj_iff, Entries.keys, Json.WellFormed.int]
  have hform : setForm spec = form := by rfl
  obtain ⟨hconvert, -, -, horder, -⟩ := convert_computes_setForm hwf
  obtain ⟨-, -, -, -, hset⟩ := convert_computes_setForm hplain
  rw [hform] at hconvert horder
  exact ⟨hconvert, horder _ rfl rfl, hset (List.cons_ne_nil _ _) (by decide)⟩

end ShellQuery.UpdateSpec
