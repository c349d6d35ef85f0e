import ShellQuery.Proofs.Outcome
import ShellQuery.Proofs.Result.Normalize
import ShellQuery.Result.Summary

/-!
# Summaries as results

A summary that is written as a result is read back from it as it was.  Replacing object ids first
makes no difference: a summary holds no wrapper, and its keys are texts, whatever they spell.

A raw report counts documents under four names, each with up to 64 bits, and their sum has 64 bits as
well.  `total` is the sum as a number without a bound.  Counts are added one after the other, and yet
their total alone decides whether they have a sum (`foldlM_plus`): a sum on the way is no larger.
Replacing object ids changes no counter (`CountedAs`), since it touches only properties that hold
wrappers and the names `_id` and `id`.

The main statement is `draw_sums_counters`: a report without a summary of its own has one whose count
is the total, as long as the total has 64 bits.  From then on there is none, and the task that draws
it is broken off (`draw_counters_beyond_bound`).
-/

namespace ShellQuery.WriteSummary

/-- The properties of a summary as a result. -/
def entries (s : WriteSummary) : Entries Json :=
  [("manipulationCount", .int s.count.toNat), ("affectedKeys", .arr (s.keys.map .str))]

theorem toJson_eq_obj (s : WriteSummary) : s.toJson = .obj s.entries := rfl

theorem find?_count (s : WriteSummary) :
    Entries.find? s.entries "manipulationCount" = some (.int s.count.toNat) := by
  rw [entries, Entries.find?, if_pos rfl]

theorem find?_keys (s : WriteSummary) :
    Entries.find? s.entries "affectedKeys" = some (.arr (s.keys.map .str)) := by
  rw [entries, Entries.find?, if_neg (by decide), Entries.find?, if_pos rfl]

/-- A summary holds nothing that is replaced. -/
theorem unmarked_toJson (s : WriteSummary) : s.toJson.Unmarked := by
  have hkeys : ∀ v ∈ s.keys.map Json.str, v.Unmarked := by
    intro v hv
    obtain ⟨key, -, rfl⟩ := List.mem_map.mp hv
    exact .str key
  have hnames : Entries.keys s.entries = ["manipulationCount", "affectedKeys"] := rfl
  rw [toJson_eq_obj]
  refine .obj (by rw [hnames]; decide) (by rw [hnames]; decide) ?_
  simp only [entries, List.forall_mem_cons]
  exact ⟨.int _, .arr hkeys, nofun⟩

/-! ## Reading back -/

theorem count?_toNat (n : UInt64) : count? (.int n.toNat) = some n := by
  -- a count of 64 bits is in the range that is read
  have hread : (Json.int n.toNat).natural? 0 Text.bound64 = some n.toNat :=
    Json.natural?_eq_some_iff.mpr ⟨rfl, Nat.zero_le _, n.toNat_lt⟩
  rw [count?, hread, Option.map_some, Nat.toUInt64_eq, UInt64.ofNat_toNat]

theorem texts?_map (keys : List String) : texts? (.arr (keys.map .str)) = some keys := by
  rw [texts?]
  induction keys with
  | nil => rfl
  | cons key rest ih => rw [List.map_cons, List.mapM_cons, ih]; rfl

theorem ofEntries?_entries (s : WriteSummary) : ofEntries? s.entries = some s := by
  simp only [ofEntries?, readEntry, find?_count, find?_keys, count?_toNat, texts?_map,
    Option.bind_eq_bind, Option.bind_some]

theorem ofObject_entries (s : WriteSummary) : ofObject s.entries = .ok s := by
  -- the count alone makes the object one that is read as a summary
  have hhas : Entries.has s.entries "manipulationCount" = true := by
    rw [Entries.has, find?_count, Option.isSome_some]
  rw [ofObject, hhas, Bool.true_or, if_pos rfl, ofEntries?_entries]

theorem draw_toJson (normalizeIds : Bool) (s : WriteSummary) :
    draw normalizeIds s.toJson = .ok (some s) := by
  have hshape : (if normalizeIds then s.toJson.normalize .idOnly else s.toJson) = s.toJson := by
    rw [s.unmarked_toJson.normalize, ite_self]
  have hnull : s.toJson.isNull = false := rfl
  have hobject : draw normalizeIds s.toJson = (ofObject s.entries).map some := by
    rw [draw, hnull, hshape, toJson_eq_obj, if_neg Bool.false_ne_true]
  rw [hobject, ofObject_entries]
  rfl

/-- A summary is read back from its result, whether object ids are replaced or not. -/
theorem ofResult_toJson (normalizeIds : Bool) (s : WriteSummary) :
    ofResult normalizeIds s.toJson = .ok (some s) := by
  rw [ofResult, draw_toJson, Outcome.mapError_ok]

variable {entries fields : Entries Json} {name : String}

/-! ## Totals -/

/-- What a property adds to the total: a natural number of 64 bits adds itself, and anything else
    adds nothing. -/
def counted (entries : Entries Json) (name : String) : Nat :=
  match Entries.find? entries name with
  | some (.int i) => if 0 ≤ i ∧ i < 2 ^ 64 then i.toNat else 0
  | _ => 0

/-- The number of all documents that a report counts. -/
def total (entries : Entries Json) : Nat :=
  counted entries "nInserted" + counted entries "nUpserted" + counted entries "nModified" +
    counted entries "nRemoved"

theorem toNat_count? (entries : Entries Json) (name : String) :
    (((Entries.find? entries name).bind count?).getD 0).toNat = counted entries name := by
  rw [counted]
  cases Entries.find? entries name with
  | none => rfl
  | some v =>
    cases v with
    | int i =>
      simp only [Option.bind_some, count?, Json.natural?]
      by_cases hi : 0 ≤ i ∧ i < 2 ^ 64
      · have hbound : i.toNat < 2 ^ 64 := by omega
        have hi' : ((0 : Nat) : Int) ≤ i ∧ i < (Text.bound64 : Int) := hi
        rw [if_pos hi, if_pos hi', Option.map_some, Option.getD_some]
        exact UInt64.toNat_ofNat_of_lt' hbound
      · have hi' : ¬ (((0 : Nat) : Int) ≤ i ∧ i < (Text.bound64 : Int)) := hi
        rw [if_neg hi, if_neg hi']
        rfl
    | null | bool | float | str | arr | obj => rfl

/-- The counters that are there add up to what all of them count. -/
theorem sum_filterMap_count? (entries : Entries Json) (names : List String) :
    ((names.filterMap fun name => (Entries.find? entries name).bind count?).map UInt64.toNat).sum =
      (names.map (counted entries)).sum := by
  induction names with
  | nil => rfl
  | cons name rest ih =>
    rw [List.filterMap_cons, List.map_cons, List.sum_cons, ← toNat_count?]
    cases (Entries.find? entries name).bind count? with
    | none => rw [ih, Option.getD_none, UInt64.toNat_zero, Nat.zero_add]
    | some n => rw [List.map_cons, List.sum_cons, ih, Option.getD_some]

theorem sum_counted (entries : Entries Json) :
    (counters.map (counted entries)).sum = total entries := by
  simp only [counters, List.map_cons, List.map_nil, List.sum_cons, List.sum_nil, Nat.add_zero,
    total, Nat.add_assoc]

/-! ## Sums -/

theorem fit_toNat (n : UInt64) : fit n.toNat = .ok n := by
  have hbound : n.toNat < Text.bound64 := n.toNat_lt
  rw [fit, if_pos hbound, Nat.toUInt64_eq, UInt64.ofNat_toNat]

/-- A number is a count as long as it has 64 bits. -/
theorem exists_fit {n : Nat} (h : n < 2 ^ 64) : ∃ count, fit n = .ok count ∧ count.toNat = n :=
  ⟨n.toUInt64, if_pos h, UInt64.toNat_ofNat_of_lt' h⟩

theorem fit_of_le {n : Nat} (h : 2 ^ 64 ≤ n) : fit n = .error (.abort .addOverflow) :=
  if_neg (Nat.not_lt.mpr h)

/-- Counts that are added one after the other have the sum that fits their total. -/
theorem foldlM_plus (ns : List UInt64) (start : UInt64) :
    ns.foldlM plus start = fit (start.toNat + (ns.map UInt64.toNat).sum) := by
  induction ns generalizing start with
  | nil => exact (fit_toNat start).symm
  | cons n ns ih =>
    rw [List.foldlM_cons, List.map_cons, List.sum_cons, ← Nat.add_assoc, plus]
    by_cases hfits : start.toNat + n.toNat < 2 ^ 64
    · obtain ⟨next, hnext, heq⟩ := exists_fit hfits
      rw [hnext, ← heq]
      exact ih next
    · -- what does not fit on the way does not fit in the end
      have hbeyond : 2 ^ 64 ≤ start.toNat + n.toNat := Nat.not_lt.mp hfits
      rw [fit_of_le hbeyond, fit_of_le (Nat.le_add_right_of_le hbeyond)]
      rfl

theorem countersSum_eq (entries : Entries Json) : countersSum entries = fit (total entries) := by
  rw [countersSum, foldlM_plus, sum_filterMap_count?, sum_counted, UInt64.toNat_zero, Nat.zero_add]

/-! ## Reports with plain ids -/

/-- Apart from `_id` and `id`, the same names stand in both lists of properties, and the values
    under them are counted alike. -/
structure CountedAs (fields entries : Entries Json) : Prop where
  present : ∀ name, name ≠ "_id" → name ≠ "id" →
    (Entries.find? fields name = none ↔ Entries.find? entries name = none)
  counted : ∀ name, name ≠ "_id" → name ≠ "id" → counted fields name = counted entries name

theorem CountedAs.refl (entries : Entries Json) : CountedAs entries entries :=
  ⟨fun _ _ _ => .rfl, fun _ _ _ => rfl⟩

theorem CountedAs.total_eq (h : CountedAs fields entries) : total fields = total entries := by
  rw [total, total, h.counted "nInserted" (by decide) (by decide),
    h.counted "nUpserted" (by decide) (by decide), h.counted "nModified" (by decide) (by decide),
    h.counted "nRemoved" (by decide) (by decide)]

/-- A value is counted after its object ids are replaced as it is before. -/
theorem count?_normalize (v : Json) : count? (v.normalize .idOnly) = count? v := by
  cases v with
  | null | bool | int | float | str | arr => rfl
  | obj entries =>
    rw [Json.normalize]
    split
    · next held hheld =>
      obtain ⟨s, -, rfl⟩ := Json.unwrapEntries?_eq_some_iff.mp hheld
      rfl
    · rfl

/-- A property apart from `_id` and `id` stays, with its object ids replaced. -/
theorem find?_renameId_normalizeFields (mode : NormalizeMode) (id : Option Json)
    (hprimary : name ≠ "_id") (hid : name ≠ "id") :
    Entries.find? (Json.renameId id (Json.normalizeFields mode entries)) name =
      (Entries.find? entries name).map (Json.normalize mode) := by
  have hfields : Entries.find? (Json.normalizeFields mode entries) name =
      (Entries.find? entries name).map (Json.normalize mode) := by
    rw [Json.normalizeFields_eq_map]
    exact Entries.find?_map (fun _ v => v.normalize mode) entries name
  cases id with
  | none => exact hfields
  | some id =>
    rw [Json.renameId, Entries.find?_put_of_ne _ _ hid, Entries.find?_erase_of_ne _ hprimary,
      hfields]

theorem countedAs_renameId_normalizeFields (id : Option Json) (entries : Entries Json) :
    CountedAs (Json.renameId id (Json.normalizeFields .idOnly entries)) entries := by
  constructor
  · intro name hprimary hid
    rw [find?_renameId_normalizeFields .idOnly id hprimary hid, Option.map_eq_none_iff]
  · intro name hprimary hid
    rw [← toNat_count?, ← toNat_count?, find?_renameId_normalizeFields .idOnly id hprimary hid]
    cases Entries.find? entries name with
    | none => rfl
    | some v => rw [Option.map_some, Option.bind_some, Option.bind_some, count?_normalize]

/-- The summary of an object is that of its properties, which are counted as they stand there.  Only
    an object that is an object id as a whole leaves no properties. -/
theorem draw_obj_cases (normalizeIds : Bool) (entries : Entries Json) :
    (∃ text, entries = [("$oid", .str text)] ∧
        draw normalizeIds (.obj entries) = .ok (some empty)) ∨
      ∃ fields, CountedAs fields entries ∧
        draw normalizeIds (.obj entries) = (ofObject fields).map some := by
  cases normalizeIds with
  | false => exact .inr ⟨entries, .refl entries, rfl⟩
  | true =>
    cases hunwrap : Json.unwrapEntries? .idOnly entries with
    | some held =>
      obtain ⟨text, rfl, rfl⟩ := Json.unwrapEntries?_eq_some_iff.mp hunwrap
      exact .inl ⟨text, rfl, rfl⟩
    | none =>
      have hfields := countedAs_renameId_normalizeFields (Json.primaryId? .idOnly entries) entries
      refine .inr ⟨_, hfields, ?_⟩
      rw [draw, if_pos rfl, Json.normalize_obj_of_unwrapped hunwrap]
      rfl

/-! ## Reports without a summary -/

/-- An object without the properties of a summary is a raw report. -/
theorem ofObject_of_find? (hcount : Entries.find? entries "manipulationCount" = none)
    (hkeys : Entries.find? entries "affectedKeys" = none) :
    ofObject entries = (fit (total entries)).map fun count => ⟨count, reportedKeys entries⟩ := by
  have hhas : (Entries.has entries "manipulationCount" || Entries.has entries "affectedKeys") =
      false := by
    rw [Entries.has, Entries.has, hcount, hkeys]
    rfl
  rw [ofObject, hhas, if_neg Bool.false_ne_true, countersSum_eq]

/-- The summary of such an object has the total of its counters for its count, whatever else it
    holds. -/
theorem exists_draw (normalizeIds : Bool)
    (hcount : Entries.find? entries "manipulationCount" = none)
    (hkeys : Entries.find? entries "affectedKeys" = none) :
    ∃ keys, draw normalizeIds (.obj entries) =
      (fit (total entries)).map fun count => some ⟨count, keys⟩ := by
  obtain ⟨text, rfl, hempty⟩ | ⟨fields, hfields, hobject⟩ := draw_obj_cases normalizeIds entries
  · exact ⟨[], hempty⟩
  · rw [← hfields.present _ (by decide) (by decide)] at hcount hkeys
    refine ⟨reportedKeys fields, ?_⟩
    rw [hobject, ofObject_of_find? hcount hkeys, hfields.total_eq, Outcome.map_map]
    rfl

/-- An object without the properties of a summary has one as long as the total of its counters has
    64 bits, and then its count is that total.  Otherwise the sum breaks off, and the task that draws
    the summary answers with an error. -/
theorem draw_sums_counters (normalizeIds : Bool)
    (hcount : Entries.find? entries "manipulationCount" = none)
    (hkeys : Entries.find? entries "affectedKeys" = none) :
    (total entries < 2 ^ 64 →
      ∃ s, draw normalizeIds (.obj entries) = .ok (some s) ∧ s.count.toNat = total entries) ∧
    (2 ^ 64 ≤ total entries →
      draw normalizeIds (.obj entries) = .error (.abort .addOverflow) ∧
        ofResult normalizeIds (.obj entries) = .error (Fault.abort .addOverflow).reported) := by
  obtain ⟨keys, hdraw⟩ := exists_draw normalizeIds hcount hkeys
  constructor
  · intro hfits
    obtain ⟨count, hcount, heq⟩ := exists_fit hfits
    rw [hdraw, hcount]
    exact ⟨⟨count, keys⟩, rfl, heq⟩
  · intro hbeyond
    rw [ofResult, hdraw, fit_of_le hbeyond]
    exact ⟨rfl, rfl⟩

/-- The largest total that has 64 bits, and the one behind it, beside an id that is replaced and a
    counter that is no natural number. -/
theorem draw_sums_counters_at_bound :
    let report (removed : Int) : Entries Json :=
      [("_id", .obj [("$oid", .str "5f9d")]), ("nInserted", .int 2), ("nModified", .int (-7)),
        ("nRemoved", .int removed)]
    (∀ removed, Entries.find? (report removed) "manipulationCount" = none ∧
        Entries.find? (report removed) "affectedKeys" = none) ∧
      (∃ s, draw true (.obj (report 18446744073709551613)) = .ok (some s) ∧
        s.count.toNat = 18446744073709551615) ∧
      draw true (.obj (report 18446744073709551614)) = .error (.abort .addOverflow) := by
  intro report
  have hcount : ∀ removed, Entries.find? (report removed) "manipulationCount" = none :=
    fun _ => rfl
  have hkeys : ∀ removed, Entries.find? (report removed) "affectedKeys" = none := fun _ => rfl
  have hfits : total (report 18446744073709551613) = 18446744073709551615 := by decide
  have hbeyond : total (report 18446744073709551614) = 2 ^ 64 := by decide
  have hlast : total (report 18446744073709551613) < 2 ^ 64 := hfits.trans_lt (by decide)
  obtain ⟨s, hs, hsum⟩ := (draw_sums_counters true (hcount _) (hkeys _)).1 hlast
  exact ⟨fun removed => ⟨hcount removed, hkeys removed⟩, ⟨s, hs, hsum.trans hfits⟩,
    ((draw_sums_counters true (hcount _) (hkeys _)).2 hbeyond.ge).1⟩

/-- A report of as many documents as 64 bits can count, and one more, has no summary. -/
theorem draw_counters_beyond_bound :
    draw false (.obj [("nInserted", .int 18446744073709551615), ("nModified", .int 1)]) =
        .error (.abort .addOverflow) ∧
      total [("nInserted", .int 18446744073709551615), ("nModified", .int 1)] = 2 ^ 64 :=
  ⟨rfl, rfl⟩

end ShellQuery.WriteSummary
