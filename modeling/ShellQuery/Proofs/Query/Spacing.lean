import ShellQuery.Proofs.Query.Head

/-!
# Blank characters in the head of a call

The names of a head are trimmed, and so is the query as a whole: blank characters around a name or
around the query do not change the call that is read.  The root is no name.  It is recognised by
its dot, which must follow it at once; behind a blank character it is a name like any other, and as
the first of three names it is the database.

The main statement is `parse_padded`.
-/

namespace ShellQuery

/-- The call on a database of the given name, in which all that the call of the text named makes up
    the collection. -/
def Call.inDatabase (name : String) (call : Call) : Call :=
  { call with
    database := some name
    collection :=
      match call.database with
      | none => call.collection
      | some database => database ++ "." ++ call.collection }

namespace Query

/-! ## Padded names -/

/-- The same name with blank characters on either side. -/
def Padded (name padded : List Char) : Prop :=
  ∃ before after, Text.IsBlankText before ∧ Text.IsBlankText after ∧
    padded = before ++ (name ++ after)

theorem Padded.trim {name padded : List Char} (h : Padded name padded) :
    Text.trim padded = Text.trim name := by
  obtain ⟨before, after, hbefore, hafter, rfl⟩ := h
  exact Text.trim_append_append hbefore hafter name

theorem Padded.isHeadName {name padded : List Char} (h : Padded name padded)
    (hname : IsHeadName name) : IsHeadName padded := by
  obtain ⟨before, after, hbefore, hafter, rfl⟩ := h
  exact (isHeadName_of_blank hbefore).append (hname.append (isHeadName_of_blank hafter))

/-- Padding changes none of the names that are read. -/
theorem map_trim_of_padded {names padded : List (List Char)} (h : List.Forall₂ Padded names padded) :
    padded.map Text.trim = names.map Text.trim := by
  induction h with
  | nil => rfl
  | cons hname _ ih => rw [List.map_cons, List.map_cons, hname.trim, ih]

theorem isHeadName_of_padded {names padded : List (List Char)}
    (h : List.Forall₂ Padded names padded) (hnames : ∀ name ∈ names, IsHeadName name) :
    ∀ name ∈ padded, IsHeadName name := by
  induction h with
  | nil => exact hnames
  | cons hname _ ih =>
    obtain ⟨hfirst, hrest⟩ := List.forall_mem_cons.mp hnames
    exact List.forall_mem_cons.mpr ⟨hname.isHeadName hfirst, ih hrest⟩

/-! ## Exchanging the head -/

/-- The head of a call may be exchanged for another one: what stands from the parenthesis on is read
    as before. -/
theorem parse_exchange_head {plain text head head' behind : List Char} {call : Call}
    {database : Option String} {collection : String}
    (h : parse (String.ofList plain) = .ok (.call call))
    (hplain : dropRoot (Text.trim plain) = head ++ '(' :: behind) (hhead : '(' ∉ head)
    (htext : dropRoot (Text.trim text) = head' ++ '(' :: behind) (hhead' : '(' ∉ head')
    (hlast : (Text.trim text).getLast? = (Text.trim plain).getLast?)
    (hnames : NamesDenote (headNames head) call.database call.collection call.operation →
      NamesDenote (headNames head') database collection call.operation) :
    parse (String.ofList text) =
      .ok (.call { call with database := database, collection := collection }) := by
  obtain ⟨hend, t, ht, hreads⟩ := reads_of_parse h
  rw [String.toList_ofList] at hend ht
  -- both heads end at the first parenthesis
  have hsplit := hreads.split
  rw [ht, hplain, Text.splitFirst?_eq_some_iff.mpr ⟨hhead, rfl⟩] at hsplit
  obtain ⟨rfl, rfl⟩ := Prod.mk.inj (Option.some.inj hsplit)
  refine parse_of_reads (t := { t with head := head' }) ?_ ?_
    ⟨hhead', hnames hreads.names, hreads.parameters, hreads.tail⟩
  · rwa [String.toList_ofList, hlast]
  · rw [String.toList_ofList]
    exact htext.symm

/-- A name in front of the others is the database, and all others but the last make up the
    collection. -/
theorem NamesDenote.inDatabase {names : List (List Char)} {call : Call} {name : List Char}
    (hname : name ≠ []) (h : NamesDenote names call.database call.collection call.operation) :
    NamesDenote (name :: names) (some (String.ofList name))
      (call.inDatabase (String.ofList name)).collection call.operation := by
  obtain ⟨database, collection, op, parameters, tail⟩ := call
  cases h with
  | @collection first op hfirst =>
    -- the one name becomes the collection
    have hmiddle : NamesDenote (name :: ([first] ++ [op.name.toList])) (some (String.ofList name))
        (String.ofList (['.'].intercalate [first])) op :=
      .database hname (List.cons_ne_nil _ _) (by simpa using hfirst)
    rwa [List.intercalate_singleton] at hmiddle
  | @database db middle op hdb hmiddle hnames =>
    -- the database of before becomes the first part of the collection
    obtain ⟨second, rest, rfl⟩ := List.exists_cons_of_ne_nil hmiddle
    have hall : ∀ n ∈ db :: second :: rest, n ≠ [] := List.forall_mem_cons.mpr ⟨hdb, hnames⟩
    have hdotted : NamesDenote (name :: ((db :: second :: rest) ++ [op.name.toList]))
        (some (String.ofList name)) (String.ofList (['.'].intercalate (db :: second :: rest))) op :=
      .database hname (List.cons_ne_nil _ _) hall
    rw [List.intercalate_cons_cons, String.ofList_append, String.ofList_append] at hdotted
    exact hdotted

/-! ## Main result -/

/-- Blank characters around the names behind the root and around the whole query change nothing
    about the call that is read.  Blank characters between the root and its dot, `gap`, make the
    root a name: then the call is one on a database of that name. -/
theorem parse_padded {root gap before after behind : List Char} {names padded : List (List Char)}
    {call : Call} (hroot : root ∈ roots) (hne : names ≠ [])
    (hnames : ∀ name ∈ names, IsHeadName name) (hpadded : List.Forall₂ Padded names padded)
    (hgap : Text.IsBlankText gap) (hbefore : Text.IsBlankText before)
    (hafter : Text.IsBlankText after)
    (h : parse (String.ofList (dotted root names ++ '(' :: behind)) = .ok (.call call)) :
    parse (String.ofList (before ++ ((dotted (root ++ gap) padded ++ '(' :: behind) ++ after))) =
      .ok (.call (if gap = [] then call else call.inDatabase (String.ofList root))) := by
  obtain ⟨first, rest, rfl⟩ := List.exists_cons_of_ne_nil hne
  obtain ⟨first', rest', -, -, rfl⟩ := List.forall₂_cons_left_iff.mp hpadded
  have hnames' := isHeadName_of_padded hpadded hnames
  have hsame := map_trim_of_padded hpadded
  have hhead := parenthesis_not_mem_dotted hnames
  -- both queries trimmed, which leaves the same text behind the parenthesis
  have hplain : Text.trim (dotted root (first :: rest) ++ '(' :: behind) =
      dotted root (first :: rest) ++ '(' :: Text.dropBlankEnd behind := by
    simpa using trim_dotted hroot [] (first :: rest) behind
  have htext : Text.trim
      (before ++ ((dotted (root ++ gap) (first' :: rest') ++ '(' :: behind) ++ after)) =
      dotted (root ++ gap) (first' :: rest') ++ '(' :: Text.dropBlankEnd behind := by
    rw [Text.trim_append_append hbefore hafter]
    exact trim_dotted hroot gap (first' :: rest') behind
  have hlast : (Text.trim
      (before ++ ((dotted (root ++ gap) (first' :: rest') ++ '(' :: behind) ++ after))).getLast? =
      (Text.trim (dotted root (first :: rest) ++ '(' :: behind)).getLast? := by
    rw [hplain, htext, List.getLast?_append_of_ne_nil _ (List.cons_ne_nil _ _),
      List.getLast?_append_of_ne_nil _ (List.cons_ne_nil _ _)]
  by_cases hempty : gap = []
  · -- the root is dropped from both queries, and the same names are left
    subst hempty
    rw [if_pos rfl]
    refine parse_exchange_head h (by rw [hplain, dropRoot_dotted hroot]) hhead
      (by rw [htext, List.append_nil, dropRoot_dotted hroot])
      (parenthesis_not_mem_dotted hnames') hlast ?_
    rw [headNames_dotted hnames, headNames_dotted hnames', hsame]
    exact id
  · -- the dot does not follow the root at once, so the root is one name more
    rw [if_neg hempty]
    have hrooted : ∀ name ∈ (root ++ gap) :: first' :: rest', IsHeadName name :=
      List.forall_mem_cons.mpr
        ⟨(isHeadName_of_mem_roots hroot).append (isHeadName_of_blank hgap), hnames'⟩
    refine parse_exchange_head h (by rw [hplain, dropRoot_dotted hroot]) hhead
      (by rw [htext, dropRoot_dotted_of_blank hroot hgap hempty])
      (parenthesis_not_mem_dotted hrooted) hlast ?_
    have hmore : ((root ++ gap) :: first' :: rest').map Text.trim =
        root :: (first :: rest).map Text.trim := by
      rw [List.map_cons, hsame, trim_append_of_mem_roots hroot hgap]
    rw [headNames_dotted hnames, headNames_dotted hrooted, hmore]
    exact NamesDenote.inDatabase (ne_nil_of_mem_roots hroot)

/-- Line feeds and wide blanks around the names, the dots and the query. -/
theorem parse_padded_between_lines :
    parse "DB.shop.orders.find(\"a . b\") .limit(2)" =
      .ok (.call ⟨some "shop", "orders", .find, [.str "a . b"], ".limit(2)"⟩) ∧
    parse "\nDB. shop\u3000.\norders.find (\"a . b\") .limit(2)\u00a0" =
      .ok (.call ⟨some "shop", "orders", .find, [.str "a . b"], ".limit(2)"⟩) := by
  have hnames : headNames "shop.orders.find".toList =
      "shop".toList :: (["orders".toList] ++ [Operation.find.name.toList]) := by decide
  have htokens : Json.tokens "[\"a . b\"]".toList =
      some [.openArray, .leaf (.str "a . b"), .closeArray] := by rfl
  have hblock : BlockDenotes "\"a . b\"".toList [.str "a . b"] := by
    refine .list (Json.readWithin?_eq_some_iff.mp ?_)
    rw [Json.readWithin?]
    exact (congrArg (Option.bind · _) htokens).trans rfl
  have hplain : parse "DB.shop.orders.find(\"a . b\") .limit(2)" =
      .ok (.call ⟨some "shop", "orders", .find, [.str "a . b"], ".limit(2)"⟩) := by
    refine parse_of_reads (t := ⟨"shop.orders.find".toList, "\"a . b\"".toList,
      " .limit(2)".toList⟩) (by decide) (by decide) ⟨by decide, ?_, hblock, by decide⟩
    rw [hnames]
    exact .database (by decide) (by decide) (by decide)
  have hpadded : List.Forall₂ Padded ["shop".toList, "orders".toList, "find".toList]
      [" shop\u3000".toList, "\norders".toList, "find ".toList] :=
    .cons ⟨[' '], ['\u3000'], by decide, by decide, rfl⟩
      (.cons ⟨['\n'], [], by decide, by decide, rfl⟩
        (.cons ⟨[], [' '], by decide, by decide, rfl⟩ .nil))
  have hrooted : "DB.shop.orders.find(\"a . b\") .limit(2)".toList =
      dotted "DB".toList ["shop".toList, "orders".toList, "find".toList] ++
        '(' :: "\"a . b\") .limit(2)".toList := by decide
  have hspaced : "\nDB. shop\u3000.\norders.find (\"a . b\") .limit(2)\u00a0".toList =
      ['\n'] ++ ((dotted ("DB".toList ++ [])
        [" shop\u3000".toList, "\norders".toList, "find ".toList] ++
        '(' :: "\"a . b\") .limit(2)".toList) ++ ['\u00a0']) := by decide
  refine ⟨hplain, ?_⟩
  rw [← String.ofList_toList (s := "DB.shop.orders.find(\"a . b\") .limit(2)"), hrooted] at hplain
  rw [← String.ofList_toList
    (s := "\nDB. shop\u3000.\norders.find (\"a . b\") .limit(2)\u00a0"), hspaced]
  exact parse_padded (by decide) (by decide) (by decide) hpadded (by decide) (by decide)
    (by decide) hplain

/-- A blank in front of the root's dot sends the call to another database. -/
theorem parse_blank_behind_root :
    parse "db.users.find()" = .ok (.call ⟨none, "users", .find, [], ""⟩) ∧
      parse "db .users.find()" = .ok (.call ⟨some "db", "users", .find, [], ""⟩) :=
  ⟨rfl, rfl⟩

end Query

end ShellQuery
