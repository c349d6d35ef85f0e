import ShellQuery.Proofs.Query.Call

/-!
# Which statements are read as scripts

A text that ends with a semicolon is no call.  It is read as a script, its text kept as it stands,
when it has a parenthesis and the names in front of the first one name a collection, just as those
of a call do; only the last of several names is not looked at.  `TargetDenotes` says so.

A semicolon alone does not make a script: a statement without a parenthesis, or with an empty name
in front of the first one, is turned down as malformed.
-/

namespace ShellQuery.Query

/-! ## Names -/

/-- The namespace that the names of a head stand for, whatever the last of several names is.  With
    at most two names the first is the collection; with more the first is the database and those in
    the middle make up the collection.  No name of a namespace is empty. -/
inductive TargetDenotes : List (List Char) → Option String → String → Prop where
  | collection {name : List Char} {rest : List (List Char)} (hname : name ≠ [])
      (hrest : rest.length ≤ 1) : TargetDenotes (name :: rest) none (String.ofList name)
  | database {db last : List Char} {middle : List (List Char)} (hdb : db ≠ [])
      (hmiddle : middle ≠ []) (hnames : ∀ name ∈ middle, name ≠ []) :
      TargetDenotes (db :: (middle ++ [last])) (some (String.ofList db))
        (String.ofList (['.'].intercalate middle))

theorem Target.ofNames_of_length_le {name : List Char} {rest : List (List Char)}
    (h : rest.length ≤ 1) : ofNames (name :: rest) = ⟨none, [name]⟩ := by
  match rest, h with
  | [], _ => rfl
  | [_], _ => rfl

/-- The target of some names is the namespace that they denote. -/
theorem targetDenotes_iff {names : List (List Char)} {database : Option String}
    {collection : String} :
    TargetDenotes names database collection ↔
      (Target.ofNames names).check = .ok () ∧
      (Target.ofNames names).database.map String.ofList = database ∧
      (Target.ofNames names).collectionName = collection := by
  constructor
  · intro h
    cases h with
    | @collection name rest hname hrest =>
      rw [Target.ofNames_of_length_le hrest]
      have hnames : ∀ n ∈ [name], n ≠ [] := by simpa using hname
      exact ⟨check_eq_ok_iff.mpr ⟨hnames, nofun⟩, rfl,
        congrArg String.ofList List.intercalate_singleton⟩
    | @database db last middle hdb hmiddle hnames =>
      rw [Target.ofNames_concat hmiddle]
      refine ⟨check_eq_ok_iff.mpr ⟨hnames, ?_⟩, rfl, rfl⟩
      intro h
      exact hdb (Option.some.inj h)
  · rintro ⟨hcheck, rfl, rfl⟩
    rw [check_eq_ok_iff] at hcheck
    cases names with
    | nil => exact absurd rfl (hcheck.1 [] (List.mem_singleton_self []))
    | cons first rest =>
      by_cases hrest : rest.length ≤ 1
      · rw [Target.ofNames_of_length_le hrest] at hcheck ⊢
        have hname : Target.collectionName ⟨none, [first]⟩ = String.ofList first :=
          congrArg String.ofList List.intercalate_singleton
        rw [hname]
        exact .collection (hcheck.1 first (List.mem_singleton_self first)) hrest
      · -- with more than two names the last stands apart
        rcases List.eq_nil_or_concat rest with rfl | ⟨middle, last, rfl⟩
        · exact absurd (Nat.zero_le 1) hrest
        · rw [List.concat_eq_append] at *
          have hmiddle : middle ≠ [] := by
            rintro rfl
            exact hrest (Nat.le_refl 1)
          rw [Target.ofNames_concat hmiddle] at hcheck ⊢
          exact .database (fun h => hcheck.2 (congrArg some h)) hmiddle hcheck.1

/-! ## Statements -/

section

variable {text : String} {head after : List Char}

/-- Without a parenthesis there is no head. -/
theorem parse_of_no_parenthesis
    (hsplit : Text.splitFirst? '(' (dropRoot (Text.trim text.toList)) = none) :
    parse text = .error (Malformed.error .noParenthesis) := by
  simp only [parse, hsplit]

/-- A head with an empty name is turned down before anything else is looked at. -/
theorem parse_of_check_error {cause : Malformed}
    (hsplit : Text.splitFirst? '(' (dropRoot (Text.trim text.toList)) = some (head, after))
    (hcheck : (Target.ofNames (headNames head)).check = .error cause) :
    parse text = .error (Malformed.error cause) := by
  simp only [parse, hsplit, hcheck]
  rfl

/-- Behind a head without an empty name, the semicolon decides. -/
theorem parse_of_semicolon (hend : (Text.trim text.toList).getLast? = some ';')
    (hsplit : Text.splitFirst? '(' (dropRoot (Text.trim text.toList)) = some (head, after))
    (hcheck : (Target.ofNames (headNames head)).check = .ok ()) :
    parse text = .ok (.script ⟨(Target.ofNames (headNames head)).database.map String.ofList,
      (Target.ofNames (headNames head)).collectionName,
      String.ofList (Text.trim text.toList)⟩) := by
  simp only [parse, hsplit, hcheck, if_pos hend]
  rfl

/-- What is read as a script ends with a semicolon. -/
theorem semicolon_of_parse {script : Script} (h : parse text = .ok (.script script)) :
    (Text.trim text.toList).getLast? = some ';' := by
  by_contra hend
  simp only [parse, if_neg hend] at h
  split at h
  · cases h
  · -- all that is left is read as a call
    obtain ⟨_, -, h⟩ := Outcome.bind_eq_ok_iff.mp h
    obtain ⟨_, -, h⟩ := Outcome.bind_eq_ok_iff.mp h
    obtain ⟨_, -, h⟩ := Outcome.bind_eq_ok_iff.mp h
    obtain ⟨_, -, h⟩ := Outcome.bind_eq_ok_iff.mp h
    cases h

end

/-- What is read as a script is a statement whose head names a collection, and its text is kept. -/
theorem parse_eq_script_iff {text : String} {script : Script} :
    parse text = .ok (.script script) ↔
      (Text.trim text.toList).getLast? = some ';' ∧
      script.text = String.ofList (Text.trim text.toList) ∧
      ∃ head after, dropRoot (Text.trim text.toList) = head ++ '(' :: after ∧ '(' ∉ head ∧
        TargetDenotes (headNames head) script.database script.collection := by
  constructor
  · intro h
    have hend := semicolon_of_parse h
    refine ⟨hend, ?_⟩
    cases hsplit : Text.splitFirst? '(' (dropRoot (Text.trim text.toList)) with
    | none => rw [parse_of_no_parenthesis hsplit] at h; cases h
    | some parts =>
      obtain ⟨hplain, hbody⟩ := Text.splitFirst?_eq_some_iff.mp hsplit
      cases hcheck : (Target.ofNames (headNames parts.1)).check with
      | error cause => rw [parse_of_check_error hsplit hcheck] at h; cases h
      | ok =>
        rw [parse_of_semicolon hend hsplit hcheck] at h
        cases h
        exact ⟨rfl, _, _, hbody, hplain, targetDenotes_iff.mpr ⟨hcheck, rfl, rfl⟩⟩
  · rintro ⟨hend, htext, head, after, hbody, hplain, htarget⟩
    have hsplit := Text.splitFirst?_eq_some_iff.mpr ⟨hplain, hbody⟩
    obtain ⟨hcheck, hdatabase, hcollection⟩ := targetDenotes_iff.mp htarget
    rw [parse_of_semicolon hend hsplit hcheck, hdatabase, hcollection, ← htext]

/-! ## Main result -/

theorem check_eq_error {target : Target} {cause : Malformed} (h : target.check = .error cause) :
    cause = .noCollection ∨ cause = .emptyDatabase := by
  unfold Target.check at h
  split at h
  · cases h
    exact .inl rfl
  · split at h
    · cases h
      exact .inr rfl
    · cases h

/-- A text that ends with a semicolon is never read as a call.  It is read as a script, whose text
    is the trimmed text, exactly when there are names in front of a parenthesis that denote a
    namespace; otherwise it is turned down as malformed, for want of a parenthesis or because of an
    empty name. -/
theorem parse_statement (text : String) (hend : (Text.trim text.toList).getLast? = some ';') :
    (∀ call, parse text ≠ .ok (.call call)) ∧
    (∀ script, parse text = .ok (.script script) ↔
      script.text = String.ofList (Text.trim text.toList) ∧
      ∃ head after, dropRoot (Text.trim text.toList) = head ++ '(' :: after ∧ '(' ∉ head ∧
        TargetDenotes (headNames head) script.database script.collection) ∧
    ∀ e, parse text = .error e →
      '(' ∉ dropRoot (Text.trim text.toList) ∧ e = Malformed.error .noParenthesis ∨
      ∃ head after, dropRoot (Text.trim text.toList) = head ++ '(' :: after ∧ '(' ∉ head ∧
        (∀ database collection, ¬ TargetDenotes (headNames head) database collection) ∧
        (e = Malformed.error .noCollection ∨ e = Malformed.error .emptyDatabase) := by
  refine ⟨?_, ?_, ?_⟩
  · intro call h
    exact (reads_of_parse h).1 hend
  · intro script
    rw [parse_eq_script_iff, and_iff_right hend]
  · -- the text in front of the first bracket is all that can be wrong
    intro e he
    cases hsplit : Text.splitFirst? '(' (dropRoot (Text.trim text.toList)) with
    | none =>
      rw [parse_of_no_parenthesis hsplit] at he
      cases he
      exact .inl ⟨Text.splitFirst?_eq_none_iff.mp hsplit, rfl⟩
    | some parts =>
      obtain ⟨hplain, hbody⟩ := Text.splitFirst?_eq_some_iff.mp hsplit
      cases hcheck : (Target.ofNames (headNames parts.1)).check with
      | ok => rw [parse_of_semicolon hend hsplit hcheck] at he; cases he
      | error cause =>
        rw [parse_of_check_error hsplit hcheck] at he
        cases he
        refine .inr ⟨_, _, hbody, hplain, ?_, ?_⟩
        · intro database collection h
          cases hcheck.symm.trans (targetDenotes_iff.mp h).1
        · rcases check_eq_error hcheck with rfl | rfl
          · exact .inl rfl
          · exact .inr rfl

/-- A statement keeps its whole text, and the call in it names the collection. -/
theorem parse_statement_chained :
    parse " db.shop.orders.find().forEach(print); " =
        .ok (.script ⟨some "shop", "orders", "db.shop.orders.find().forEach(print);"⟩) ∧
      ∀ call, parse " db.shop.orders.find().forEach(print); " ≠ .ok (.call call) := by
  have hend : (Text.trim " db.shop.orders.find().forEach(print); ".toList).getLast? = some ';' := by
    decide
  obtain ⟨hcall, hscript, -⟩ := parse_statement " db.shop.orders.find().forEach(print); " hend
  refine ⟨(hscript _).mpr ⟨rfl, "shop.orders.find".toList, ").forEach(print);".toList, ?_, ?_, ?_⟩,
    hcall⟩
  · decide
  · decide
  · have hnames : headNames "shop.orders.find".toList =
        "shop".toList :: (["orders".toList] ++ ["find".toList]) := by decide
    rw [hnames]
    exact .database (by decide) (by decide) (by decide)

/-- A statement that assigns a value has no parenthesis, and a function that is called at once has
    no name in front of its first one; both are turned down. -/
theorem parse_statement_turned_down :
    (Text.trim "total = 5;".toList).getLast? = some ';' ∧
      parse "total = 5;" = .error (Malformed.error .noParenthesis) ∧
      (Text.trim "(function () \x7b\x7d)();".toList).getLast? = some ';' ∧
      parse "(function () \x7b\x7d)();" = .error (Malformed.error .noCollection) :=
  ⟨by decide, rfl, by decide, rfl⟩

end ShellQuery.Query
