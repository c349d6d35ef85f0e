import ShellQuery.Proofs.Json.Lexing

/-!
# Reading values

The readers of values, items and members are mutually recursive on fuel.  `Phrase.ReadFrom` states
for all three what it means to read a phrase off the front of a token sequence, so that soundness
is one induction on the fuel and completeness one induction on the derivation.

The main statement is `readWithin?_eq_some_iff`: a text is read as a value exactly when it denotes
that value within the depth that is allowed.
-/

namespace ShellQuery.Json

/-! ## Reading a phrase -/

/-- The bracket that the reader of a phrase takes along. -/
def Phrase.closer : Phrase → List Token
  | .value _ => []
  | .items _ => [.closeArray]
  | .fields _ => [.closeObject]

/-- The reader of a phrase takes it, with its closing bracket, off the front of the tokens. -/
def Phrase.ReadFrom (fuel depth : Nat) (ts rest : List Token) : Phrase → Prop
  | .value v => readValue fuel depth ts = some (v, rest)
  | .items vs => readItems fuel depth ts = some (vs, rest)
  | .fields fs => readFields fuel depth ts = some (fs, rest)

/-- The fuel that the reader of a phrase spares on it: a value is read by one step less than a
    list of one item. -/
def Phrase.spare : Phrase → Nat
  | .value _ => 1
  | .items _ => 0
  | .fields _ => 0

/-! ## Soundness -/

/-- What the readers return with a given amount of fuel is derived. -/
private def SoundWith (fuel : Nat) : Prop :=
  ∀ (p : Phrase) (d : Nat) (ts rest : List Token), p.ReadFrom fuel d ts rest →
    ∃ us, ts = us ++ (p.closer ++ rest) ∧ Derives d p us

private theorem readValue_sound {fuel : Nat} (ih : SoundWith fuel) {d : Nat} {v : Json}
    {ts rest : List Token} (h : readValue (fuel + 1) d ts = some (v, rest)) :
    ∃ us, ts = us ++ rest ∧ Derives d (.value v) us := by
  unfold readValue at h
  -- one case for each rule of the reader
  split at h
  · cases h
  · cases h
    exact ⟨[.leaf v], rfl, .leaf v⟩
  · cases h
    exact ⟨[.openArray, .closeArray], rfl, .emptyArray⟩
  · next d ts _ heq =>
    cases heq
    split at h
    · next vs rest' hitems =>
      cases h
      obtain ⟨us, rfl, hus⟩ := ih (.items vs) d ts rest hitems
      exact ⟨.openArray :: (us ++ [.closeArray]), by simp [Phrase.closer], .array hus⟩
    · cases h
  · cases h
    exact ⟨[.openObject, .closeObject], rfl, .emptyObject⟩
  · next d ts _ heq =>
    cases heq
    split at h
    · next fs rest' hfields =>
      cases h
      obtain ⟨us, rfl, hus⟩ := ih (.fields fs) d ts rest hfields
      exact ⟨.openObject :: (us ++ [.closeObject]), by simp [Phrase.closer], .object hus⟩
    · cases h
  · cases h

private theorem readItems_sound {fuel : Nat} (ih : SoundWith fuel) {d : Nat} {vs : List Json}
    {ts rest : List Token} (h : readItems (fuel + 1) d ts = some (vs, rest)) :
    ∃ us, ts = us ++ .closeArray :: rest ∧ Derives d (.items vs) us := by
  rw [readItems] at h
  split at h
  · next v rest' hvalue =>
    -- a comma, and further items behind it
    obtain ⟨us, rfl, hus⟩ := ih (.value v) d ts (.comma :: rest') hvalue
    split at h
    · next vs rest'' hitems =>
      cases h
      obtain ⟨ws, rfl, hws⟩ := ih (.items vs) d rest' rest hitems
      exact ⟨us ++ .comma :: ws, by simp [Phrase.closer], .item hus hws⟩
    · cases h
  · next v rest' hvalue =>
    -- the closing bracket, so this item is the last
    cases h
    obtain ⟨us, rfl, hus⟩ := ih (.value v) d ts (.closeArray :: rest) hvalue
    exact ⟨us, rfl, .lastItem hus⟩
  · cases h

private theorem readFields_sound {fuel : Nat} (ih : SoundWith fuel) {d : Nat}
    {fs : List (String × Json)} {ts rest : List Token}
    (h : readFields (fuel + 1) d ts = some (fs, rest)) :
    ∃ us, ts = us ++ .closeObject :: rest ∧ Derives d (.fields fs) us := by
  unfold readFields at h
  split at h
  · cases h
  · next name ts heq =>
    cases heq
    split at h
    · next v rest' hvalue =>
      -- a comma, and further members behind it
      obtain ⟨us, rfl, hus⟩ := ih (.value v) _ ts (.comma :: rest') hvalue
      split at h
      · next fs rest'' hfields =>
        cases h
        obtain ⟨ws, rfl, hws⟩ := ih (.fields fs) _ rest' rest hfields
        exact ⟨.leaf (str name) :: .colon :: (us ++ .comma :: ws), by simp [Phrase.closer],
          .field hus hws⟩
      · cases h
    · next v rest' hvalue =>
      -- the closing brace, so this member is the last
      cases h
      obtain ⟨us, rfl, hus⟩ := ih (.value v) _ ts (.closeObject :: rest) hvalue
      exact ⟨.leaf (str name) :: .colon :: us, rfl, .lastField hus⟩
    · cases h
  · cases h

/-- Tokens that are read as a phrase derive it. -/
theorem Phrase.ReadFrom.derives {fuel d : Nat} {p : Phrase} {ts rest : List Token}
    (h : p.ReadFrom fuel d ts rest) : ∃ us, ts = us ++ (p.closer ++ rest) ∧ Derives d p us := by
  induction fuel generalizing p d ts rest with
  | zero =>
    -- without fuel no reader returns anything
    cases p with
    | value v => simp [ReadFrom, readValue] at h
    | items vs => simp [ReadFrom, readItems] at h
    | fields fs => simp [ReadFrom, readFields] at h
  | succ fuel ih =>
    have ih' : SoundWith fuel := fun _ _ _ _ => ih
    cases p with
    | value v => exact readValue_sound ih' h
    | items vs => exact readItems_sound ih' h
    | fields fs => exact readFields_sound ih' h

/-! ## Completeness -/

/-- No phrase is empty or starts with a closing bracket. -/
theorem Derives.head {d : Nat} {p : Phrase} {ts : List Token} (h : Derives d p ts) :
    ∃ t us, ts = t :: us ∧ t ≠ .closeArray ∧ t ≠ .closeObject := by
  induction h with
  | leaf v => exact ⟨.leaf v, [], rfl, nofun, nofun⟩
  | emptyArray => exact ⟨.openArray, _, rfl, nofun, nofun⟩
  | array => exact ⟨.openArray, _, rfl, nofun, nofun⟩
  | emptyObject => exact ⟨.openObject, _, rfl, nofun, nofun⟩
  | object => exact ⟨.openObject, _, rfl, nofun, nofun⟩
  | lastItem _ ih => exact ih
  | item _ _ ih _ =>
    obtain ⟨t, us, rfl, hopen⟩ := ih
    exact ⟨t, _, List.cons_append, hopen⟩
  | @lastField _ name => exact ⟨.leaf (str name), _, rfl, nofun, nofun⟩
  | @field _ name => exact ⟨.leaf (str name), _, rfl, nofun, nofun⟩

private theorem Derives.length_pos {d : Nat} {p : Phrase} {ts : List Token} (h : Derives d p ts) :
    0 < ts.length := by
  obtain ⟨t, us, rfl, -⟩ := h.head
  exact Nat.succ_pos _

/-- No reader can do without fuel. -/
private theorem Derives.fuel_succ {d : Nat} {p : Phrase} {ts : List Token} (h : Derives d p ts)
    {fuel : Nat} (hfuel : 2 * ts.length ≤ fuel + p.spare) : ∃ n, fuel = n + 1 := by
  have hpos := h.length_pos
  have hspare : p.spare ≤ 1 := by cases p <;> simp [Phrase.spare]
  exact ⟨fuel - 1, by omega⟩

/-- A list whose items are read is read, as its first token is no closing bracket. -/
private theorem readValue_array {fuel d : Nat} {vs : List Json} {ts rest : List Token}
    (hts : Derives d (.items vs) ts)
    (hread : readItems fuel d (ts ++ .closeArray :: rest) = some (vs, rest)) :
    readValue (fuel + 1) (d + 1) (.openArray :: (ts ++ .closeArray :: rest)) =
      some (arr vs, rest) := by
  obtain ⟨t, us, rfl, hopen, -⟩ := hts.head
  rw [List.cons_append] at hread ⊢
  rw [readValue, hread]
  -- the rule for the empty list does not apply
  intro ts' hts'
  cases hts'
  exact hopen rfl

private theorem readValue_object {fuel d : Nat} {fs : List (String × Json)} {ts rest : List Token}
    (hts : Derives d (.fields fs) ts)
    (hread : readFields fuel d (ts ++ .closeObject :: rest) = some (fs, rest)) :
    readValue (fuel + 1) (d + 1) (.openObject :: (ts ++ .closeObject :: rest)) =
      some (obj (Entries.ofList fs), rest) := by
  obtain ⟨t, us, rfl, -, hopen⟩ := hts.head
  rw [List.cons_append] at hread ⊢
  rw [readValue, hread]
  -- the rule for the empty object does not apply
  intro ts' hts'
  cases hts'
  exact hopen rfl

/-- Tokens that derive a phrase are read as that phrase, given two units of fuel for each.  The
    induction is on the derivation; every rule takes one unit before it descends. -/
theorem Derives.readFrom {d : Nat} {p : Phrase} {ts : List Token} (h : Derives d p ts)
    {fuel : Nat} (hfuel : 2 * ts.length ≤ fuel + p.spare) (rest : List Token) :
    p.ReadFrom fuel d (ts ++ (p.closer ++ rest)) rest := by
  induction h generalizing fuel rest with
  | @leaf d v =>
    obtain ⟨n, rfl⟩ := (@Derives.leaf d v).fuel_succ hfuel
    rfl
  | @emptyArray d =>
    obtain ⟨n, rfl⟩ := (@Derives.emptyArray d).fuel_succ hfuel
    rfl
  | @array d vs ts hts ih =>
    obtain ⟨n, rfl⟩ := hts.array.fuel_succ hfuel
    simp only [Phrase.spare, List.length_cons, List.length_append, List.length_nil] at hfuel
    have hitems : (Phrase.items vs).ReadFrom n d _ rest :=
      ih (by simp only [Phrase.spare]; omega) rest
    simpa [Phrase.ReadFrom, Phrase.closer] using readValue_array hts hitems
  | @emptyObject d =>
    obtain ⟨n, rfl⟩ := (@Derives.emptyObject d).fuel_succ hfuel
    rfl
  | @object d fs ts hts ih =>
    obtain ⟨n, rfl⟩ := hts.object.fuel_succ hfuel
    simp only [Phrase.spare, List.length_cons, List.length_append, List.length_nil] at hfuel
    have hfields : (Phrase.fields fs).ReadFrom n d _ rest :=
      ih (by simp only [Phrase.spare]; omega) rest
    simpa [Phrase.ReadFrom, Phrase.closer] using readValue_object hts hfields
  | @lastItem d v ts hv ih =>
    obtain ⟨n, rfl⟩ := hv.lastItem.fuel_succ hfuel
    have hvalue : readValue n d (ts ++ .closeArray :: rest) = some (v, .closeArray :: rest) :=
      ih (by simp only [Phrase.spare] at hfuel ⊢; omega) (.closeArray :: rest)
    simp [Phrase.ReadFrom, Phrase.closer, readItems, hvalue]
  | @item d v vs ts us hv hvs ihv ihvs =>
    -- the comma pays for the unit of fuel, so enough is left for either side of it
    obtain ⟨n, rfl⟩ := (hv.item hvs).fuel_succ hfuel
    simp only [Phrase.spare, List.length_cons, List.length_append] at hfuel
    have hvalue : readValue n d (ts ++ .comma :: (us ++ .closeArray :: rest)) =
        some (v, .comma :: (us ++ .closeArray :: rest)) :=
      ihv (by simp only [Phrase.spare]; omega) (.comma :: (us ++ .closeArray :: rest))
    have hitems : readItems n d (us ++ .closeArray :: rest) = some (vs, rest) :=
      ihvs (by simp only [Phrase.spare]; omega) rest
    simp [Phrase.ReadFrom, Phrase.closer, readItems, hvalue, hitems]
  | @lastField d name v ts hv ih =>
    obtain ⟨n, rfl⟩ := (@Derives.lastField d name v ts hv).fuel_succ hfuel
    have hvalue : readValue n d (ts ++ .closeObject :: rest) = some (v, .closeObject :: rest) :=
      ih (by simp only [Phrase.spare, List.length_cons] at hfuel ⊢; omega) (.closeObject :: rest)
    simp [Phrase.ReadFrom, Phrase.closer, readFields, hvalue]
  | @field d name v fs ts us hv hfs ihv ihfs =>
    -- the same, with the name and the colon in front
    obtain ⟨n, rfl⟩ := (@Derives.field d name v fs ts us hv hfs).fuel_succ hfuel
    simp only [Phrase.spare, List.length_cons, List.length_append] at hfuel
    have hvalue : readValue n d (ts ++ .comma :: (us ++ .closeObject :: rest)) =
        some (v, .comma :: (us ++ .closeObject :: rest)) :=
      ihv (by simp only [Phrase.spare]; omega) (.comma :: (us ++ .closeObject :: rest))
    have hfields : readFields n d (us ++ .closeObject :: rest) = some (fs, rest) :=
      ihfs (by simp only [Phrase.spare]; omega) rest
    simp [Phrase.ReadFrom, Phrase.closer, readFields, hvalue, hfields]

/-! ## Separation -/

/-- A token that is no value may stand next to any other. -/
private theorem separated_of_not_leaf {t : Token} (ht : t.isLeaf = false) (u : Token) :
    Separated t u ∧ Separated u t := by
  refine ⟨fun hleaf => ?_, fun _ => ht⟩
  rw [ht] at hleaf
  cases hleaf

/-- A token that is no value may stand in front of a sequence. -/
private theorem isChain_cons {t : Token} (ht : t.isLeaf = false) {ts : List Token}
    (h : ts.IsChain Separated) : (t :: ts).IsChain Separated := by
  rw [List.isChain_cons]
  exact ⟨fun u _ => (separated_of_not_leaf ht u).1, h⟩

/-- Sequences may be joined by a token that is no value. -/
private theorem isChain_join {t : Token} (ht : t.isLeaf = false) {ts us : List Token}
    (hts : ts.IsChain Separated) (hus : us.IsChain Separated) :
    (ts ++ t :: us).IsChain Separated := by
  rw [List.isChain_append]
  refine ⟨hts, isChain_cons ht hus, ?_⟩
  -- at the joint stands the token, whatever comes before it
  intro a _ b hb
  cases hb
  exact (separated_of_not_leaf ht a).2

/-- Two values of a derivation never stand side by side. -/
theorem Derives.separated {d : Nat} {p : Phrase} {ts : List Token} (h : Derives d p ts) :
    ts.IsChain Separated := by
  induction h with
  | leaf => exact .singleton _
  | emptyArray | emptyObject => exact isChain_cons rfl (.singleton _)
  | array _ ih | object _ ih => exact isChain_cons rfl (isChain_join rfl ih .nil)
  | lastItem _ ih => exact ih
  | item _ _ ih ihs => exact isChain_join rfl ih ihs
  | @lastField d name v ts _ ih =>
    -- the name is a value as well, and the colon keeps it apart
    exact isChain_join (t := .colon) rfl (.singleton (.leaf (str name))) ih
  | @field d name v fs ts us _ _ ih ihs =>
    have hmembers : (ts ++ .comma :: us).IsChain Separated := isChain_join rfl ih ihs
    exact isChain_join (t := .colon) rfl (.singleton (.leaf (str name))) hmembers

/-! ## Nesting -/

/-- What nests so deep at most may be derived where more depth is allowed. -/
theorem Derives.mono {d e : Nat} {p : Phrase} {ts : List Token} (h : Derives d p ts)
    (hde : d ≤ e) : Derives e p ts := by
  induction h generalizing e with
  | leaf v => exact .leaf v
  | emptyArray =>
    -- a list or an object takes one level of its own
    obtain ⟨e, rfl⟩ := Nat.exists_eq_add_one_of_ne_zero (Nat.ne_zero_of_lt hde)
    exact .emptyArray
  | array _ ih =>
    obtain ⟨e, rfl⟩ := Nat.exists_eq_add_one_of_ne_zero (Nat.ne_zero_of_lt hde)
    exact .array (ih (Nat.le_of_succ_le_succ hde))
  | emptyObject =>
    obtain ⟨e, rfl⟩ := Nat.exists_eq_add_one_of_ne_zero (Nat.ne_zero_of_lt hde)
    exact .emptyObject
  | object _ ih =>
    obtain ⟨e, rfl⟩ := Nat.exists_eq_add_one_of_ne_zero (Nat.ne_zero_of_lt hde)
    exact .object (ih (Nat.le_of_succ_le_succ hde))
  | lastItem _ ih => exact .lastItem (ih hde)
  | item _ _ ih ihs => exact .item (ih hde) (ihs hde)
  | lastField _ ih => exact .lastField (ih hde)
  | field _ _ ih ihs => exact .field (ih hde) (ihs hde)

theorem Denotes.mono {d e : Nat} {s : List Char} {v : Json} (h : Denotes d s v) (hde : d ≤ e) :
    Denotes e s v := by
  obtain ⟨ts, hspelling, hderives⟩ := h
  exact ⟨ts, hspelling, hderives.mono hde⟩

/-! ## Whole texts -/

/-- A sequence of tokens is read as a value exactly when it derives that value. -/
theorem ofTokens?_eq_some_iff {depth : Nat} {ts : List Token} {v : Json} :
    ofTokens? depth ts = some v ↔ Derives depth (.value v) ts := by
  unfold ofTokens?
  constructor
  · intro h
    split at h
    · next w hread =>
      cases h
      have hfrom : (Phrase.value v).ReadFrom (2 * ts.length + 1) depth ts [] := hread
      obtain ⟨us, hus, hderives⟩ := hfrom.derives
      simpa [hus, Phrase.closer] using hderives
    · cases h
  · intro h
    have hread : readValue (2 * ts.length + 1) depth (ts ++ []) = some (v, []) :=
      h.readFrom (by simp only [Phrase.spare]; omega) []
    rw [List.append_nil] at hread
    rw [hread]

/-- A text is read as a value exactly when it denotes that value within the depth. -/
theorem readWithin?_eq_some_iff {depth : Nat} {s : List Char} {v : Json} :
    readWithin? depth s = some v ↔ Denotes depth s v := by
  constructor
  · intro h
    obtain ⟨ts, htokens, hvalue⟩ := Option.bind_eq_some_iff.mp h
    exact ⟨ts, readTokens_sound htokens, ofTokens?_eq_some_iff.mp hvalue⟩
  · rintro ⟨ts, hspelling, hderives⟩
    -- the tokens of a derivation are those that the lexer finds
    have htokens : tokens s = some ts :=
      readTokens_complete hspelling hderives.separated (Nat.le_refl _)
    rw [readWithin?, htokens]
    exact ofTokens?_eq_some_iff.mpr hderives

/-- A text writes at most one value. -/
theorem Denotes.unique {depth : Nat} {s : List Char} {v w : Json} (hv : Denotes depth s v)
    (hw : Denotes depth s w) : v = w := by
  rw [← readWithin?_eq_some_iff] at hv hw
  exact Option.some.inj (hv.symm.trans hw)

end ShellQuery.Json
