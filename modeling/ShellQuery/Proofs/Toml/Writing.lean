import ShellQuery.Proofs.Toml.Reading

/-!
# Writing plain TOML documents

Every text has a written form between double quotes, where the characters that cannot stand for
themselves are escaped.  So there is a plain document for any tables of texts, truth values and
natural numbers: `exists_isDocument`.
-/

namespace ShellQuery.Toml

/-! ## Texts -/

/-- Characters that are not printable are among the first of all, and have a short code. -/
theorem exists_charText (c : Char) : ∃ s, CharText c s := by
  by_cases hquote : c = '"'
  · exact ⟨_, .short (e := '"') (by simp [shortEscapes, hquote])⟩
  by_cases hslash : c = '\\'
  · exact ⟨_, .short (e := '\\') (by simp [shortEscapes, hslash])⟩
  by_cases hprint : isPrintable c = true
  · exact ⟨_, .plain hquote hslash hprint⟩
  · have hsmall : c.toNat < 256 := by
      simp only [isPrintable, Bool.or_eq_true, Bool.and_eq_true, decide_eq_true_eq, not_or,
        not_and, ne_eq, Decidable.not_not] at hprint
      omega
    have hcode : Text.natOfHex? ('0' :: '0' :: Text.hexByte c.toNat) = some c.toNat :=
      Text.natOfHex?_hexByte hsmall
    exact ⟨_, .code4 rfl hcode⟩

theorem exists_basicText (cs : List Char) : ∃ t, BasicText cs t := by
  induction cs with
  | nil => exact ⟨[], .nil⟩
  | cons c r ih =>
    obtain ⟨s, hs⟩ := exists_charText c
    obtain ⟨t, ht⟩ := ih
    exact ⟨s ++ t, .cons hs ht⟩

theorem exists_nameText (name : String) : ∃ t, NameText name t := by
  obtain ⟨t, ht⟩ := exists_basicText name.toList
  have hname := NameText.basic ht
  rw [String.ofList_toList] at hname
  exact ⟨_, hname⟩

/-! ## Values -/

theorem groupedDigits_natDigits (n : Nat) :
    GroupedDigits (Text.natDigits n) (Text.natDigits n) := by
  have hruns : ∀ ds : List Char, ds ≠ [] → (∀ c ∈ ds, Text.isDigit c = true) →
      GroupedDigits ds ds := by
    intro ds hne hds
    induction ds with
    | nil => exact absurd rfl hne
    | cons c r ih =>
      obtain ⟨hc, hr⟩ := List.forall_mem_cons.mp hds
      cases r with
      | nil => exact .single hc
      | cons d r => exact .digit hc (ih (List.cons_ne_nil d r) hr)
  exact hruns _ (Text.natDigits_ne_nil n) fun _ => Text.isDigit_of_mem_natDigits

/-- The value can stand in a plain document. -/
inductive IsPlain : Toml → Prop where
  | string (s : String) : IsPlain (string s)
  | integer {n : Nat} (hn : n < 9223372036854775808) : IsPlain (integer n)
  | boolean (b : Bool) : IsPlain (boolean b)

theorem IsPlain.exists_valueText {v : Toml} (h : IsPlain v) : ∃ t, ValueText v t := by
  cases h with
  | string s =>
    obtain ⟨t, ht⟩ := exists_basicText s.toList
    have hvalue := ValueText.basic ht
    rw [String.ofList_toList] at hvalue
    exact ⟨_, hvalue⟩
  | @integer n hn => exact ⟨_, .integer hn (.bare (groupedDigits_natDigits n))⟩
  | boolean b =>
    cases b with
    | false => exact ⟨_, .false⟩
    | true => exact ⟨_, .true⟩

/-! ## Documents -/

/-- What the line says can be written. -/
def Line.IsPlain : Line → Prop
  | .header _ => True
  | .assignment _ v => Toml.IsPlain v

theorem Line.IsPlain.exists_lineText {l : Line} (h : l.IsPlain) : ∃ t, LineText l t := by
  cases l with
  | header name =>
    obtain ⟨t, ht⟩ := exists_nameText name
    exact ⟨_, @LineText.header name t [] [] ht nofun nofun⟩
  | assignment name v =>
    obtain ⟨t, ht⟩ := exists_nameText name
    obtain ⟨u, hu⟩ := IsPlain.exists_valueText h
    exact ⟨_, @LineText.assignment name v t u [] [] ht hu nofun nofun⟩

theorem exists_spells {lines : List Line} (h : ∀ l ∈ lines, l.IsPlain) : ∃ s, Spells lines s := by
  induction lines with
  | nil => exact ⟨[], .nil⟩
  | cons l rest ih =>
    obtain ⟨hl, hrest⟩ := List.forall_mem_cons.mp h
    obtain ⟨t, ht⟩ := hl.exists_lineText
    obtain ⟨s, hs⟩ := ih hrest
    exact ⟨_, @Spells.line l rest [] t _ s nofun ht (.bare (.feed s)) hs⟩

/-- There is a document with any given tables of plain values. -/
theorem exists_isDocument {sections : List Section} (hnodup : (Entries.keys sections).Nodup)
    (hentries : ∀ e ∈ sections, (Entries.keys e.2).Nodup)
    (hplain : ∀ e ∈ sections, ∀ row ∈ e.2, IsPlain row.2) :
    ∃ s : String, IsDocument sections s.toList := by
  have hlines : ∀ l ∈ sections.flatMap Section.lines, l.IsPlain := by
    intro l hl
    obtain ⟨e, he, hmem⟩ := List.mem_flatMap.mp hl
    obtain rfl | hrow := List.mem_cons.mp hmem
    · trivial
    · obtain ⟨row, hmem', rfl⟩ := List.mem_map.mp hrow
      exact hplain e he row hmem'
  obtain ⟨s, hs⟩ := exists_spells hlines
  refine ⟨String.ofList s, ⟨s, hs, .inl String.toList_ofList⟩, hnodup, hentries⟩

end ShellQuery.Toml
