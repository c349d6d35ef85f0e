import ShellQuery.Proofs.Resolver.FindAndModify

/-!
# Looking up the entries of a specification

Flags and options of a specification have forms of their own, and entries that have them are
well-typed.  Reading well-typed entries one by one gives what looking up each name gives:
`ofEntries_eq_lookedUp`.  So the order of the entries does not matter, nor do entries of other
names: `lookedUp_perm`.
-/

namespace ShellQuery

/-! ## Forms of values -/

/-- The value is a truth value. -/
def IsBool (v : Json) (b : Bool) : Prop :=
  v = .bool b

/-- The value is a natural number of 64 bits. -/
def IsNatural64 (v : Json) (n : Nat) : Prop :=
  v = .int n ∧ n < Text.bound64

/-- The value is a collation. -/
def IsCollation (v : Json) (c : Collation) : Prop :=
  Collation.read? v = some c

theorem isBool_iff (v : Json) (b : Bool) : IsBool v b ↔ v.bool? = some b := by
  cases v <;> simp [IsBool, Json.bool?]

theorem isNatural64_iff (v : Json) (n : Nat) :
    IsNatural64 v n ↔ Specification.natural? v = some n := by
  rw [IsNatural64, Specification.natural?, Json.natural?_eq_some_iff, and_iff_right (Nat.zero_le n)]

theorem isCollation_iff (v : Json) (c : Collation) :
    IsCollation v c ↔ Collation.read? v = some c :=
  Iff.rfl

/-! ## Well-typed entries -/

/-- The value may be an entry of the name.  Flags and options have forms of their own; the parts
    that become documents are not looked at. -/
structure FitsEntry (name : String) (v : Json) : Prop where
  flag : name ∈ ["remove", "new", "upsert"] → IsFlag v
  bypassValidation : name = "bypassDocumentValidation" → v = .null ∨ ∃ b, IsBool v b
  maxTimeMs : name = "maxTimeMS" → v = .null ∨ ∃ n, IsNatural64 v n
  collation : name = "collation" → v = .null ∨ ∃ c, IsCollation v c

/-- All entries have the forms that their names ask for. -/
def WellTyped (entries : Entries Json) : Prop :=
  ∀ name v, (name, v) ∈ entries → FitsEntry name v

namespace Specification

variable {entries more : Entries Json} {name : String} {v : Json}

/-- The names that have a meaning in a specification. -/
def names : List String :=
  ["query", "sort", "update", "fields", "remove", "new", "upsert", "bypassDocumentValidation",
   "maxTimeMS", "collation"]

/-- The names that have a meaning for an update only. -/
def updateNames : List String :=
  ["new", "upsert", "bypassDocumentValidation"]

/-! ## Looking up -/

/-- The specification with each part looked up under its name. -/
def lookedUp (entries : Entries Json) : Specification where
  query := (Entries.find? entries "query").bind present
  sort := (Entries.find? entries "sort").bind present
  update := (Entries.find? entries "update").bind present
  remove := ((Entries.find? entries "remove").bind Json.flag?).getD false
  returnNew := ((Entries.find? entries "new").bind Json.flag?).getD false
  fields := (Entries.find? entries "fields").bind present
  upsert := ((Entries.find? entries "upsert").bind Json.flag?).getD false
  bypassValidation :=
    ((Entries.find? entries "bypassDocumentValidation").bind present).bind Json.bool?
  maxTimeMs := ((Entries.find? entries "maxTimeMS").bind present).bind natural?
  collation := ((Entries.find? entries "collation").bind present).bind Collation.read?

/-- Entries with the same values under the names that have a meaning give the same. -/
theorem lookedUp_congr (h : ∀ name ∈ names, Entries.find? entries name = Entries.find? more name) :
    lookedUp entries = lookedUp more := by
  simp only [names, List.forall_mem_cons, List.not_mem_nil, IsEmpty.forall_iff, implies_true,
    and_true] at h
  obtain ⟨hquery, hsort, hupdate, hfields, hremove, hnew, hupsert, hbypass, hmax, hcollation⟩ := h
  simp only [lookedUp, hquery, hsort, hupdate, hfields, hremove, hnew, hupsert, hbypass, hmax,
    hcollation]

theorem exists_flag (h : IsFlag v) : ∃ b, v.flag? = some b ∧ flag v = .ok b := by
  cases h <;> exact ⟨_, rfl, rfl⟩

/-- An entry that may be `null` is read when it is, or has the form that is asked for. -/
theorem typed_eq_ok {α : Type} {StandsFor : Json → α → Prop} {read : Json → Option α}
    (hread : ∀ v a, StandsFor v a ↔ read v = some a) (h : v = .null ∨ ∃ a, StandsFor v a) :
    typed read v = .ok ((present v).bind read) := by
  obtain rfl | ⟨a, ha⟩ := h
  · rfl
  · have ha := (hread _ _).mp ha
    cases v <;> simp [typed, present, ha]

/-- An entry behind others adds to what is looked up from those just what it says. -/
theorem add_lookedUp (hname : name ∉ Entries.keys entries) (hfits : FitsEntry name v) :
    add (lookedUp entries) (name, v) = .ok (lookedUp (entries ++ [(name, v)])) := by
  have hfind := fun key => Entries.find?_append_singleton v hname key
  simp only [add]
  split
  case h_1 | h_2 | h_3 | h_4 => simp [lookedUp, hfind]
  case h_5 | h_6 | h_7 =>
    obtain ⟨b, hb, hflag⟩ := exists_flag (hfits.flag (by simp))
    simp [lookedUp, hfind, hb, hflag, bind, Except.bind]
  case h_8 =>
    have htyped := typed_eq_ok isBool_iff (hfits.bypassValidation rfl)
    simp [lookedUp, hfind, htyped, bind, Except.bind]
  case h_9 =>
    have htyped := typed_eq_ok isNatural64_iff (hfits.maxTimeMs rfl)
    simp [lookedUp, hfind, htyped, bind, Except.bind]
  case h_10 =>
    have htyped := typed_eq_ok isCollation_iff (hfits.collation rfl)
    simp [lookedUp, hfind, htyped, bind, Except.bind]
  case h_11 hquery hsort hupdate hfields hremove hnew hupsert hbypass hmax hcollation =>
    -- a name without a meaning is not looked up
    have hother : name ∉ names := by
      simp only [names, List.mem_cons, List.not_mem_nil, or_false, not_or]
      exact ⟨hquery, hsort, hupdate, hfields, hremove, hnew, hupsert, hbypass, hmax, hcollation⟩
    refine congrArg Except.ok (lookedUp_congr fun key hkey => ?_)
    have hne : name ≠ key := fun h => hother (h ▸ hkey)
    rw [hfind, if_neg hne]

/-- Well-typed entries are read, and give what is looked up under their names.  The induction takes
    the last entry off: what has been read before it is what is looked up among the others. -/
theorem ofEntries_eq_lookedUp (hnodup : (Entries.keys entries).Nodup) (htyped : WellTyped entries) :
    ofEntries entries = .ok (lookedUp entries) := by
  induction entries using List.reverseRecOn with
  | nil => rfl
  | append_singleton before e ih =>
    obtain ⟨name, v⟩ := e
    rw [Entries.keys, List.map_append, List.nodup_append] at hnodup
    have hbefore : ofEntries before = .ok (lookedUp before) :=
      ih hnodup.1 fun k w h => htyped k w (List.mem_append_left _ h)
    have hname : name ∉ Entries.keys before := fun h =>
      hnodup.2.2 name h name List.mem_cons_self rfl
    have hfits : FitsEntry name v := htyped name v (by simp)
    unfold ofEntries at hbefore ⊢
    rw [List.foldlM_append, hbefore, ← add_lookedUp hname hfits]
    exact bind_pure (add (lookedUp before) (name, v))

/-- The order of the entries does not matter, nor do entries of names without a meaning. -/
theorem lookedUp_perm {extra : Entries Json} (hperm : more.Perm (entries ++ extra))
    (hnodup : (Entries.keys more).Nodup) (hextra : ∀ name ∈ Entries.keys extra, name ∉ names) :
    lookedUp more = lookedUp entries := by
  refine lookedUp_congr fun name hname => ?_
  have hnone : Entries.find? extra name = none :=
    Entries.find?_eq_none_iff.mpr fun h => hextra name h hname
  rw [Entries.find?_of_perm hperm hnodup, Entries.find?_append, hnone, Option.or_none]

end Specification

/-- An entry of a name without a meaning may be any value. -/
theorem FitsEntry.of_not_mem_names {name : String} {v : Json} (h : name ∉ Specification.names) :
    FitsEntry name v := by
  have hflags : name ∉ ["remove", "new", "upsert"] := fun hname =>
    h ((by decide : ["remove", "new", "upsert"] ⊆ Specification.names) hname)
  simp only [Specification.names, List.mem_cons, not_or] at h
  obtain ⟨-, -, -, -, -, -, -, hbypass, hmax, hcollation, -⟩ := h
  exact ⟨fun hname => absurd hname hflags, fun hname => absurd hname hbypass,
    fun hname => absurd hname hmax, fun hname => absurd hname hcollation⟩

/-- Well-typed entries stay so in another order and with entries of names without a meaning. -/
theorem WellTyped.of_perm {entries more extra : Entries Json} (h : WellTyped entries)
    (hperm : more.Perm (entries ++ extra))
    (hextra : ∀ name ∈ Entries.keys extra, name ∉ Specification.names) : WellTyped more := by
  intro name v hmem
  obtain hentries | hother := List.mem_append.mp (hperm.mem_iff.mp hmem)
  · exact h name v hentries
  · exact .of_not_mem_names (hextra name (Entries.mem_keys_of_mem hother))

end ShellQuery
