import ShellQuery.Proofs.Entries
import ShellQuery.Proofs.Json.Reading
import ShellQuery.Proofs.Text.Digits

/-!
# What the printers write

Each part of a printer goes with a rule of the grammar: an escaped character with `CharText`, the
items of a list with a phrase.  A printer puts the text of a value in front of a given rest, so
`Prints` says what it does whatever that rest is.

How numbers are written is left open here.  `IsSpelling` collects what the lists and objects of a
text need: space may stand anywhere, and brackets, separators and strings are lexemes.
-/

namespace ShellQuery.Json

/-! ## Strings -/

/-- A character is written as the grammar allows it. -/
theorem charText_writeChar (c : Char) : CharText c (writeChar c) := by
  unfold writeChar
  split
  -- the characters with an escape of one letter
  · exact .escape rfl
  · exact .escape rfl
  · exact .escape rfl
  · exact .escape rfl
  · exact .escape rfl
  · exact .escape rfl
  · exact .escape rfl
  · next hquote hslash _ _ _ _ _ =>
    -- other control characters by their number, and all others as they are
    split
    · next hcontrol =>
      have hunit : hexUnit? '0' '0' (Text.hexDigit (c.toNat / 16)) (Text.hexDigit c.toNat) =
          some c.toNat := Text.natOfHex?_hexByte (by omega)
      have hchar : unitChar? c.toNat = some c := by
        rw [unitChar?, if_neg (by omega), Char.ofNat_toNat]
      exact .unit hunit hchar
    · next hprint => exact .plain hquote hslash (Nat.le_of_not_lt hprint)

theorem stringText_writeChars (cs : List Char) : StringText cs (writeChars cs) := by
  induction cs with
  | nil => exact .nil
  | cons c r ih => exact .cons (charText_writeChar c) ih

theorem lexeme_writeString (s : String) : Lexeme (.leaf (str s)) (writeString s) := by
  have hstring := Lexeme.string (stringText_writeChars s.toList)
  rwa [String.ofList_toList] at hstring

/-! ## Phrases -/

/-- A way to spell tokens in which space may stand anywhere and in which brackets, separators and
    strings are written as lexemes. -/
structure IsSpelling (R : List Token → List Char → Prop) : Prop where
  space {c : Char} {ts : List Token} {s : List Char} (hc : isSpace c = true) (h : R ts s) :
    R ts (c :: s)
  mark {c : Char} {t : Token} (hc : punctuation? c = some t) {ts : List Token} {s : List Char}
    (h : R ts s) : R (t :: ts) (c :: s)
  text (name : String) {ts : List Token} {s : List Char} (h : R ts s) :
    R (.leaf (str name) :: ts) (writeString name ++ s)

/-- The printer writes the phrase in front of any text. -/
def Prints (R : List Token → List Char → Prop) (d : Nat) (p : Phrase)
    (print : List Char → List Char) : Prop :=
  ∃ ts, Derives d p ts ∧ ∀ us rest, R us rest → R (ts ++ us) (print rest)

section

variable {R : List Token → List Char → Prop} {d : Nat}

theorem Prints.mono {e : Nat} {p : Phrase} {print : List Char → List Char}
    (h : Prints R d p print) (hde : d ≤ e) : Prints R e p print := by
  obtain ⟨ts, hderives, hspelling⟩ := h
  exact ⟨ts, hderives.mono hde, hspelling⟩

/-- One bound for the nesting of all values of a list. -/
theorem exists_depth {α : Type} {phrase : α → Phrase} {print : α → List Char → List Char}
    {as : List α} (h : ∀ a ∈ as, ∃ d, Prints R d (phrase a) (print a)) :
    ∃ d, ∀ a ∈ as, Prints R d (phrase a) (print a) := by
  induction as with
  | nil => exact ⟨0, nofun⟩
  | cons a as ih =>
    obtain ⟨⟨d, ha⟩, has⟩ := List.forall_mem_cons.mp h
    obtain ⟨e, hothers⟩ := ih has
    exact ⟨max d e, List.forall_mem_cons.mpr ⟨ha.mono (le_max_left d e), fun b hb =>
      (hothers b hb).mono (le_max_right d e)⟩⟩

theorem IsSpelling.gap (hR : IsSpelling R) {gap : List Char} (hgap : ∀ c ∈ gap, isSpace c = true)
    {ts : List Token} {s : List Char} (h : R ts s) : R ts (gap ++ s) := by
  induction gap with
  | nil => exact h
  | cons c gap ih =>
    obtain ⟨hc, hgap⟩ := List.forall_mem_cons.mp hgap
    exact hR.space hc (ih hgap)

/-- A name, a colon, space and what follows them. -/
theorem IsSpelling.name (hR : IsSpelling R) (name : String) {gap : List Char}
    (hgap : ∀ c ∈ gap, isSpace c = true) {ts : List Token} {s : List Char} (h : R ts s) :
    R (.leaf (Json.str name) :: .colon :: ts) (writeString name ++ ':' :: (gap ++ s)) :=
  hR.text name (hR.mark rfl (hR.gap hgap h))

section

variable {gap : List Char} {print : Json → List Char → List Char}

/-- The items of a list, each behind a comma and space but the first. -/
theorem prints_items (hR : IsSpelling R) (more : List Json → List Char → List Char)
    (hgap : ∀ c ∈ gap, isSpace c = true) (hnil : ∀ rest, more [] rest = rest)
    (hcons : ∀ v vs rest, more (v :: vs) rest = ',' :: (gap ++ print v (more vs rest)))
    {v : Json} {vs : List Json} (h : ∀ w ∈ v :: vs, Prints R d (.value w) (print w)) :
    Prints R d (.items (v :: vs)) fun rest => print v (more vs rest) := by
  induction vs generalizing v with
  | nil =>
    obtain ⟨ts, hderives, hspelling⟩ := h v List.mem_cons_self
    refine ⟨ts, .lastItem hderives, fun us rest hrest => ?_⟩
    simp only [hnil]
    exact hspelling us rest hrest
  | cons w vs ih =>
    obtain ⟨hv, hvs⟩ := List.forall_mem_cons.mp h
    obtain ⟨ts, hderives, hspelling⟩ := hv
    obtain ⟨ws, hmore, hothers⟩ := ih hvs
    refine ⟨ts ++ .comma :: ws, .item hderives hmore, fun us rest hrest => ?_⟩
    -- behind the first item stand a comma and the other items
    have hbehind : R (.comma :: (ws ++ us)) (more (w :: vs) rest) := by
      rw [hcons]
      exact hR.mark rfl (hR.gap hgap (hothers us rest hrest))
    rw [List.append_assoc]
    exact hspelling _ _ hbehind

/-- The members of an object, each behind a comma and space but the first; more space may stand
    behind the colon. -/
theorem prints_fields (hR : IsSpelling R) (more : List (String × Json) → List Char → List Char)
    (hgap : ∀ c ∈ gap, isSpace c = true) {after : List Char}
    (hafter : ∀ c ∈ after, isSpace c = true) (hnil : ∀ rest, more [] rest = rest)
    (hcons : ∀ name v fs rest, more ((name, v) :: fs) rest =
      ',' :: (gap ++ (writeString name ++ ':' :: (after ++ print v (more fs rest)))))
    {name : String} {v : Json} {fs : List (String × Json)}
    (h : ∀ f ∈ (name, v) :: fs, Prints R d (.value f.2) (print f.2)) :
    Prints R d (.fields ((name, v) :: fs)) fun rest =>
      writeString name ++ ':' :: (after ++ print v (more fs rest)) := by
  induction fs generalizing name v with
  | nil =>
    obtain ⟨ts, hderives, hspelling⟩ := h (name, v) List.mem_cons_self
    refine ⟨_, .lastField hderives, fun us rest hrest => ?_⟩
    simp only [hnil]
    exact hR.name name hafter (hspelling us rest hrest)
  | cons f fs ih =>
    obtain ⟨hv, hfs⟩ := List.forall_mem_cons.mp h
    obtain ⟨other, w⟩ := f
    obtain ⟨ts, hderives, hspelling⟩ := hv
    obtain ⟨ws, hmore, hothers⟩ := ih hfs
    refine ⟨_, .field hderives hmore, fun us rest hrest => ?_⟩
    have hbehind : R (.comma :: (ws ++ us)) (more ((other, w) :: fs) rest) := by
      rw [hcons]
      exact hR.mark rfl (hR.gap hgap (hothers us rest hrest))
    have hvalue := hR.name name hafter (hspelling _ _ hbehind)
    simpa using hvalue

end

section

variable {before behind : List Char} {inside : List Char → List Char}

/-- A phrase between brackets, with space next to them. -/
private theorem spelling_enclosed (hR : IsSpelling R) {o c : Char} {t u : Token}
    (ho : punctuation? o = some t) (hc : punctuation? c = some u)
    (hbefore : ∀ c ∈ before, isSpace c = true) (hbehind : ∀ c ∈ behind, isSpace c = true)
    {ts : List Token} (h : ∀ us rest, R us rest → R (ts ++ us) (inside rest))
    (us : List Token) (rest : List Char) (hrest : R us rest) :
    R (t :: (ts ++ [u]) ++ us) (o :: (before ++ inside (behind ++ c :: rest))) := by
  have hclosed := hR.gap hbehind (hR.mark hc hrest)
  have hopened := hR.mark ho (hR.gap hbefore (h _ _ hclosed))
  simpa using hopened

theorem prints_array (hR : IsSpelling R) (hbefore : ∀ c ∈ before, isSpace c = true)
    (hbehind : ∀ c ∈ behind, isSpace c = true) {vs : List Json}
    (h : Prints R d (.items vs) inside) :
    Prints R (d + 1) (.value (arr vs)) fun rest =>
      '[' :: (before ++ inside (behind ++ ']' :: rest)) := by
  obtain ⟨ts, hderives, hspelling⟩ := h
  exact ⟨_, .array hderives, spelling_enclosed hR rfl rfl hbefore hbehind hspelling⟩

theorem prints_object (hR : IsSpelling R) (hbefore : ∀ c ∈ before, isSpace c = true)
    (hbehind : ∀ c ∈ behind, isSpace c = true) {fs : List (String × Json)}
    (hnodup : (Entries.keys fs).Nodup) (h : Prints R d (.fields fs) inside) :
    Prints R (d + 1) (.value (obj fs)) fun rest =>
      '{' :: (before ++ inside (behind ++ '}' :: rest)) := by
  obtain ⟨ts, hderives, hspelling⟩ := h
  -- no name is written twice, so reading keeps all members
  have hvalue := Derives.object hderives
  rw [Entries.ofList_eq_self hnodup] at hvalue
  exact ⟨_, hvalue, spelling_enclosed hR rfl rfl hbefore hbehind hspelling⟩

end

theorem prints_emptyArray (hR : IsSpelling R) :
    Prints R (d + 1) (.value (arr [])) fun rest => '[' :: ']' :: rest :=
  ⟨_, .emptyArray, fun _ _ hrest => hR.mark rfl (hR.mark rfl hrest)⟩

theorem prints_emptyObject (hR : IsSpelling R) :
    Prints R (d + 1) (.value (obj [])) fun rest => '{' :: '}' :: rest :=
  ⟨_, .emptyObject, fun _ _ hrest => hR.mark rfl (hR.mark rfl hrest)⟩

/-! ## The compact form -/

private theorem isSpace_nil : ∀ c ∈ ([] : List Char), isSpace c = true :=
  List.forall_mem_nil _

/-- The brackets of a list count for one level of nesting. -/
theorem prints_writeOnto_arr (hR : IsSpelling R) {items : List Json}
    (h : ∀ v ∈ items, Prints R d (.value v) (writeOnto v)) :
    Prints R (d + 1) (.value (arr items)) (writeOnto (arr items)) := by
  cases items with
  | nil => exact prints_emptyArray hR
  | cons v vs =>
    have hitems := prints_items hR writeItemsOnto isSpace_nil (fun _ => rfl) (fun _ _ _ => rfl) h
    exact prints_array hR isSpace_nil isSpace_nil hitems

theorem prints_writeOnto_obj (hR : IsSpelling R) {entries : List (String × Json)}
    (hnodup : (Entries.keys entries).Nodup)
    (h : ∀ e ∈ entries, Prints R d (.value e.2) (writeOnto e.2)) :
    Prints R (d + 1) (.value (obj entries)) (writeOnto (obj entries)) := by
  cases entries with
  | nil => exact prints_emptyObject hR
  | cons f fs =>
    have hfields := prints_fields hR writeFieldsOnto isSpace_nil isSpace_nil (fun _ => rfl)
      (fun _ _ _ _ => rfl) h
    exact prints_object hR isSpace_nil isSpace_nil hnodup hfields

/-! ## The pretty form -/

theorem isSpace_newLine (level : Nat) : ∀ c ∈ newLine level, isSpace c = true := by
  intro c hc
  obtain rfl | hblank := List.mem_cons.mp hc
  · rfl
  · rw [(List.mem_replicate.mp hblank).2]
    rfl

private theorem isSpace_blank : ∀ c ∈ [' '], isSpace c = true :=
  List.all_eq_true.mp rfl

/-- A new line stands in front of each item and of the closing bracket. -/
theorem prints_prettyOnto_arr (hR : IsSpelling R) {level : Nat} {items : List Json}
    (h : ∀ v ∈ items, Prints R d (.value v) (prettyOnto (level + 1) v)) :
    Prints R (d + 1) (.value (arr items)) (prettyOnto level (arr items)) := by
  cases items with
  | nil => exact prints_emptyArray hR
  | cons v vs =>
    have hline := isSpace_newLine (level + 1)
    have hitems := prints_items hR (prettyItemsOnto (level + 1)) hline (fun _ => rfl)
      (fun _ _ _ => rfl) h
    exact prints_array hR hline (isSpace_newLine level) hitems

/-- Behind each colon stands a blank. -/
theorem prints_prettyOnto_obj (hR : IsSpelling R) {level : Nat} {entries : List (String × Json)}
    (hnodup : (Entries.keys entries).Nodup)
    (h : ∀ e ∈ entries, Prints R d (.value e.2) (prettyOnto (level + 1) e.2)) :
    Prints R (d + 1) (.value (obj entries)) (prettyOnto level (obj entries)) := by
  cases entries with
  | nil => exact prints_emptyObject hR
  | cons f fs =>
    have hline := isSpace_newLine (level + 1)
    have hfields := prints_fields hR (prettyFieldsOnto (level + 1)) hline isSpace_blank
      (fun _ => rfl) (fun _ _ _ _ => by simp [prettyFieldsOnto]) h
    have hobject := prints_object hR hline (isSpace_newLine level) hnodup hfields
    simpa [prettyOnto] using hobject

end

end ShellQuery.Json
