import Mathlib.Data.List.TakeWhile
import ShellQuery.Proofs.Outcome
import ShellQuery.Proofs.Query.Block
import ShellQuery.Query.Call

/-!
# The grammar of calls

A call is a head without parenthesis, a block between parentheses and a tail.  `CallText.Reads`
says what the three parts mean: the names of the head give the namespace and the operation, the
block gives the parameters, and the tail is kept.

The main statement is `parse_eq_call_iff`: these texts, and no others, are read as calls, and each
in one way only.  It rests on two facts about the block: the scan for the closing parenthesis
finds exactly the balanced texts, and a list of JSON values is balanced.
-/

namespace ShellQuery

/-! ## Names -/

/-- An operation is found under its name and under no other. -/
theorem Operation.ofName?_eq_some_iff {s : String} {op : Operation} :
    ofName? s = some op ↔ s = op.name := by
  constructor
  · intro h
    have hname := List.find?_some h
    simpa using (of_decide_eq_true hname).symm
  · rintro rfl
    exact ofName?_name op

namespace Text

/-- A text is split at the first mark: none stands in front of it. -/
theorem splitFirst?_eq_some_iff {mark : Char} {s before after : List Char} :
    splitFirst? mark s = some (before, after) ↔ mark ∉ before ∧ s = before ++ mark :: after := by
  constructor
  · intro h
    refine ⟨?_, splitFirst?_eq_some h⟩
    induction s generalizing before with
    | nil => cases h
    | cons c r ih =>
      rw [splitFirst?] at h
      split at h
      · cases h
        exact List.not_mem_nil
      · next hc =>
        obtain ⟨⟨b, a⟩, hfound, heq⟩ := Option.map_eq_some_iff.mp h
        cases heq
        rw [List.mem_cons, not_or]
        exact ⟨Ne.symm hc, ih hfound⟩
  · -- the scan passes over what stands in front of the mark
    rintro ⟨hmark, rfl⟩
    induction before with
    | nil => simp [splitFirst?]
    | cons c r ih =>
      rw [List.mem_cons, not_or] at hmark
      simp [splitFirst?, Ne.symm hmark.1, ih hmark.2]

theorem splitFirst?_eq_none_iff {mark : Char} {s : List Char} :
    splitFirst? mark s = none ↔ mark ∉ s := by
  constructor
  · intro h hmem
    obtain ⟨before, after, rfl, hbefore⟩ := List.eq_append_cons_of_mem hmem
    rw [splitFirst?_eq_some_iff.mpr ⟨hbefore, rfl⟩] at h
    cases h
  · intro hmark
    cases h : splitFirst? mark s with
    | none => rfl
    | some parts =>
      rw [splitFirst?_eq_some h] at hmark
      exact absurd (List.mem_append_right _ List.mem_cons_self) hmark

end Text

namespace Query

/-! ## The grammar -/

/-- What the names of a head stand for: with two names the first is the collection; with more the
    first is the database and those in the middle make up the collection.  No name is empty, and
    the last is one of an operation. -/
inductive NamesDenote : List (List Char) → Option String → String → Operation → Prop where
  | collection {name : List Char} {op : Operation} (hname : name ≠ []) :
      NamesDenote [name, op.name.toList] none (String.ofList name) op
  | database {db : List Char} {middle : List (List Char)} {op : Operation} (hdb : db ≠ [])
      (hmiddle : middle ≠ []) (hnames : ∀ name ∈ middle, name ≠ []) :
      NamesDenote (db :: (middle ++ [op.name.toList])) (some (String.ofList db))
        (String.ofList (['.'].intercalate middle)) op

/-- What a block stands for: nothing when it is blank, else the items of the list that it makes up
    between square brackets. -/
inductive BlockDenotes : List Char → List Json → Prop where
  | blank {block : List Char} (h : ∀ c ∈ block, Text.isBlank c = true) : BlockDenotes block []
  | list {block : List Char} {parameters : List Json}
      (h : Json.Denotes Json.maxDepth ('[' :: (block ++ [']'])) (.arr parameters)) :
      BlockDenotes block parameters

/-- The parts of the text of a call. -/
structure CallText where
  head : List Char
  block : List Char
  tail : List Char

/-- The text that has the parts. -/
def CallText.text (t : CallText) : List Char :=
  t.head ++ '(' :: (t.block ++ ')' :: t.tail)

/-- The call that the parts of a text describe. -/
structure CallText.Reads (t : CallText) (call : Call) : Prop where
  plain : '(' ∉ t.head
  names : NamesDenote (headNames t.head) call.database call.collection call.operation
  parameters : BlockDenotes t.block call.parameters
  tail : call.tail = String.ofList (Text.trim t.tail)

/-! ## The head -/

theorem check_eq_ok_iff {target : Target} :
    target.check = .ok () ↔
      (∀ name ∈ target.collection, name ≠ []) ∧ target.database ≠ some [] := by
  unfold Target.check
  split
  · next hany =>
    -- a name of the collection is empty
    obtain ⟨name, hmem, hempty⟩ := List.any_eq_true.mp hany
    simp only [reduceCtorEq, false_iff, not_and]
    intro hall
    exact absurd (List.isEmpty_iff.mp hempty) (hall name hmem)
  · next hany =>
    have hall : ∀ name ∈ target.collection, name ≠ [] := by
      rintro name hmem rfl
      exact hany (List.any_eq_true.mpr ⟨[], hmem, rfl⟩)
    -- only the name of the database is left to check
    split
    · next hdb => simp [hdb]
    · next hdb => simp only [true_iff]; exact ⟨hall, hdb⟩

theorem Target.ofNames_concat {db last : List Char} {middle : List (List Char)}
    (hmiddle : middle ≠ []) : ofNames (db :: (middle ++ [last])) = ⟨some db, middle⟩ := by
  cases middle with
  | nil => exact absurd rfl hmiddle
  | cons name rest =>
    cases rest with
    | nil => rfl
    | cons other rest =>
      show (⟨some db, name :: (other :: (rest ++ [last])).dropLast⟩ : Target) = _
      rw [← List.cons_append, List.dropLast_concat]

/-- The operation is the one whose name stands last. -/
theorem operationOf_concat_eq_ok_iff {first last : List Char} {middle : List (List Char)}
    {target : Target} {op : Operation} :
    operationOf (first :: (middle ++ [last])) target = .ok op ↔ last = op.name.toList := by
  have hnames : op.name.toList ≠ [] := by cases op <;> decide
  obtain ⟨second, rest, hsplit⟩ : ∃ second rest, middle ++ [last] = second :: rest :=
    List.exists_cons_of_ne_nil (by simp)
  have hlast : (second :: rest).getLast (by simp) = last := by
    simp only [← hsplit, List.getLast_concat]
  rw [hsplit]
  simp only [operationOf, hlast]
  split
  · next hempty =>
    -- no operation has the empty name
    rw [List.isEmpty_iff] at hempty
    simp only [reduceCtorEq, false_iff, hempty]
    exact Ne.symm hnames
  · split
    · next found hfound =>
      rw [Operation.ofName?_eq_some_iff] at hfound
      obtain rfl : last = found.name.toList := by rw [← hfound, String.toList_ofList]
      constructor
      · intro h
        cases h
        rfl
      · intro h
        -- different operations have different names
        have hname : found = op := by
          have hfind := Operation.ofName?_name found
          rw [String.toList_inj.mp h, Operation.ofName?_name] at hfind
          exact (Option.some.inj hfind).symm
        rw [hname]
    · next hnone =>
      constructor
      · intro h
        cases h
      · rintro rfl
        rw [String.ofList_toList, Operation.ofName?_name] at hnone
        cases hnone

/-- The target and the operation of some names are what the names denote. -/
theorem namesDenote_iff {names : List (List Char)} {database : Option String}
    {collection : String} {op : Operation} :
    NamesDenote names database collection op ↔
      (Target.ofNames names).check = .ok () ∧
      operationOf names (Target.ofNames names) = .ok op ∧
      (Target.ofNames names).database.map String.ofList = database ∧
      (Target.ofNames names).collectionName = collection := by
  constructor
  · intro h
    cases h with
    | @collection name op hname =>
      have hop : operationOf (name :: ([] ++ [op.name.toList])) ⟨none, [name]⟩ = .ok op :=
        operationOf_concat_eq_ok_iff.mpr rfl
      have hnames : ∀ n ∈ [name], n ≠ [] := by simpa using hname
      exact ⟨check_eq_ok_iff.mpr ⟨hnames, nofun⟩, hop, rfl,
        congrArg String.ofList List.intercalate_singleton⟩
    | @database db middle op hdb hmiddle hnames =>
      rw [Target.ofNames_concat hmiddle]
      refine ⟨check_eq_ok_iff.mpr ⟨hnames, ?_⟩, operationOf_concat_eq_ok_iff.mpr rfl, rfl, rfl⟩
      intro h
      exact hdb (Option.some.inj h)
  · rintro ⟨hcheck, hop, rfl, rfl⟩
    rw [check_eq_ok_iff] at hcheck
    -- two names at least; whether there are more decides what the first stands for
    cases names with
    | nil => cases hop
    | cons first rest =>
      rcases List.eq_nil_or_concat rest with rfl | ⟨middle, last, rfl⟩
      · cases hop
      · rw [List.concat_eq_append] at *
        obtain rfl := operationOf_concat_eq_ok_iff.mp hop
        by_cases hmiddle : middle = []
        · subst hmiddle
          have hfirst : first ≠ [] := hcheck.1 first (List.mem_singleton_self first)
          have hname : Target.collectionName ⟨none, [first]⟩ = String.ofList first :=
            congrArg String.ofList List.intercalate_singleton
          show NamesDenote [first, op.name.toList] none (Target.collectionName ⟨none, [first]⟩) op
          rw [hname]
          exact .collection hfirst
        · rw [Target.ofNames_concat hmiddle] at hcheck ⊢
          exact .database (fun h => hcheck.2 (congrArg some h)) hmiddle hcheck.1

/-! ## The block -/

/-- A block that means something is balanced. -/
theorem BlockDenotes.balanced {block : List Char} {parameters : List Json}
    (h : BlockDenotes block parameters) : Bracket.Balanced block := by
  cases h with
  | blank h =>
    exact Bracket.balanced_of_plain fun c hc => Bracket.isPlain_of_class (by decide) (h c hc)
  | list h => exact h.balanced_inside

theorem dropBlank_isEmpty_iff {s : List Char} :
    (Text.dropBlank s).isEmpty = true ↔ ∀ c ∈ s, Text.isBlank c = true := by
  rw [Text.dropBlank, List.isEmpty_iff]
  exact List.dropWhile_eq_nil_iff

/-- The parameters that are read are those that the block stands for. -/
theorem readParameters_eq_ok_iff {block : List Char} {parameters : List Json} :
    readParameters block = .ok parameters ↔ BlockDenotes block parameters := by
  unfold readParameters
  split
  · next hblank =>
    rw [dropBlank_isEmpty_iff] at hblank
    constructor
    · intro h
      cases h
      exact .blank hblank
    · intro h
      cases h with
      | blank => rfl
      | list hlist =>
        -- a blank block between brackets is the empty list
        rw [hlist.eq_nil_of_blank hblank]
  · next hblank =>
    rw [dropBlank_isEmpty_iff] at hblank
    constructor
    · intro h
      split at h
      · next items hread =>
        cases h
        exact .list (Json.readWithin?_eq_some_iff.mp hread)
      · cases h
    · intro h
      cases h with
      | blank hall => exact absurd hall hblank
      | list hlist => rw [Json.read?, Json.readWithin?_eq_some_iff.mpr hlist]

/-! ## Calls -/

/-- The head of a call ends at the first parenthesis of its text. -/
theorem CallText.Reads.split {t : CallText} {call : Call} (h : t.Reads call) :
    Text.splitFirst? '(' t.text = some (t.head, t.block ++ ')' :: t.tail) :=
  Text.splitFirst?_eq_some_iff.mpr ⟨h.plain, rfl⟩

/-- The block of a call is the group behind its head. -/
theorem CallText.Reads.group {t : CallText} {call : Call} (h : t.Reads call) (position : Nat) :
    Bracket.group position ('(' :: (t.block ++ ')' :: t.tail)) = .ok ⟨t.block, t.tail⟩ :=
  Bracket.group_eq_ok_iff.mpr ⟨'(', ')', rfl, rfl, h.parameters.balanced⟩

/-- A text has only one split into the parts of a call. -/
theorem CallText.Reads.unique {t u : CallText} {call other : Call} (ht : t.Reads call)
    (hu : u.Reads other) (htext : t.text = u.text) : t = u := by
  -- both heads end at the first parenthesis
  have hsplit := ht.split
  rw [htext, hu.split] at hsplit
  obtain ⟨hhead, hafter⟩ := Prod.mk.inj (Option.some.inj hsplit)
  -- behind it both blocks are the group that the scan finds
  have hgroup := ht.group 0
  rw [← hafter, hu.group 0] at hgroup
  obtain ⟨hblock, htail⟩ := Bracket.Group.mk.inj (Except.ok.inj hgroup)
  cases t
  cases u
  simp only at hhead hblock htail
  rw [hhead, hblock, htail]

/-- The parts of a text are read as the call that they describe. -/
theorem parse_of_reads {text : String} {t : CallText} {call : Call}
    (hscript : (Text.trim text.toList).getLast? ≠ some ';')
    (htext : t.text = dropRoot (Text.trim text.toList)) (h : t.Reads call) :
    parse text = .ok (.call call) := by
  obtain ⟨hcheck, hop, hdatabase, hcollection⟩ := namesDenote_iff.mp h.names
  have hgroup := h.group (Text.byteLength t.head)
  have hparameters : readParameters t.block = .ok call.parameters :=
    readParameters_eq_ok_iff.mpr h.parameters
  simp only [parse, ← htext, h.split, hcheck, hdatabase, hcollection, if_neg hscript, hop, hgroup,
    Outcome.mapError_ok, bind, Except.bind, hparameters, ← h.tail]

/-- A text with a block that is read as a list is read as the call that its parts describe. -/
theorem parse_of_tokens {text : String} {t : CallText} {call : Call} {ts : List Json.Token}
    (htext : Text.trim text.toList = t.text)
    (hplain : (Text.trim text.toList).getLast? ≠ some ';' ∧ dropRoot t.text = t.text ∧ '(' ∉ t.head)
    (hnames : NamesDenote (headNames t.head) call.database call.collection call.operation)
    (htokens : Json.tokens ('[' :: (t.block ++ [']'])) = some ts)
    (hvalue : Json.ofTokens? Json.maxDepth ts = some (.arr call.parameters))
    (htail : call.tail = String.ofList (Text.trim t.tail)) : parse text = .ok (.call call) := by
  have hlist : Json.Denotes Json.maxDepth ('[' :: (t.block ++ [']'])) (.arr call.parameters) := by
    rw [← Json.readWithin?_eq_some_iff, Json.readWithin?, htokens]
    exact hvalue
  refine parse_of_reads hplain.1 ?_ ⟨hplain.2.2, hnames, .list hlist, htail⟩
  rw [htext, hplain.2.1]

/-- A call on the collection `c` whose block is read as a list. -/
theorem parse_of_block (op : Operation) (text block : String) {ts : List Json.Token}
    {parameters : List Json}
    (htext : Text.trim text.toList = ("c." ++ op.name).toList ++ '(' :: (block.toList ++ [')']))
    (htokens : Json.tokens ('[' :: (block.toList ++ [']'])) = some ts)
    (hvalue : Json.ofTokens? Json.maxDepth ts = some (.arr parameters)) :
    parse text = .ok (.call ⟨none, "c", op, parameters, ""⟩) := by
  have hscript : (Text.trim text.toList).getLast? ≠ some ';' := by
    rw [htext, ← List.cons_append, ← List.append_assoc, List.getLast?_concat]
    decide
  have hroot : ∀ rest, dropRoot (("c." ++ op.name).toList ++ '(' :: rest) =
      ("c." ++ op.name).toList ++ '(' :: rest := by
    cases op <;> exact fun _ => rfl
  have hplain : '(' ∉ ("c." ++ op.name).toList := by
    cases op <;> decide
  have hnames : headNames ("c." ++ op.name).toList = [['c'], op.name.toList] := by
    cases op <;> decide
  refine parse_of_tokens (t := ⟨("c." ++ op.name).toList, block.toList, []⟩) htext
    ⟨hscript, hroot _, hplain⟩ ?_ htokens hvalue rfl
  rw [hnames]
  exact .collection (by decide)

/-- What is read as a call has the parts of one. -/
theorem reads_of_parse {text : String} {call : Call} (h : parse text = .ok (.call call)) :
    (Text.trim text.toList).getLast? ≠ some ';' ∧
      ∃ t : CallText, t.text = dropRoot (Text.trim text.toList) ∧ t.Reads call := by
  simp only [parse] at h
  split at h
  · cases h
  · next head after hsplit =>
    obtain ⟨hplain, hbody⟩ := Text.splitFirst?_eq_some_iff.mp hsplit
    obtain ⟨_, hcheck, h⟩ := Outcome.bind_eq_ok_iff.mp h
    split at h
    · cases h
    · next hscript =>
      obtain ⟨op, hop, h⟩ := Outcome.bind_eq_ok_iff.mp h
      obtain ⟨g, hgroup, h⟩ := Outcome.bind_eq_ok_iff.mp h
      obtain ⟨parameters, hparameters, h⟩ := Outcome.bind_eq_ok_iff.mp h
      cases h
      rw [Outcome.mapError_eq_ok_iff] at hcheck hgroup
      -- the bracket that opens the group is the parenthesis at which the head ends
      obtain ⟨o, c, hopen, htext, -⟩ := Bracket.group_eq_ok_iff.mp hgroup
      obtain ⟨rfl, rfl⟩ := List.cons.inj htext
      cases hopen
      refine ⟨hscript, ⟨head, g.inside, g.rest⟩, hbody.symm, hplain, ?_, ?_, rfl⟩
      · exact namesDenote_iff.mpr ⟨hcheck, hop, rfl, rfl⟩
      · exact readParameters_eq_ok_iff.mp hparameters

/-- A text is read as a call exactly when it does not end as a script does and has, behind the
    root, the parts of that call.  The parts are unique, whatever call they describe. -/
theorem parse_eq_call_iff (text : String) :
    (∀ call, parse text = .ok (.call call) ↔
      (Text.trim text.toList).getLast? ≠ some ';' ∧
        ∃ t : CallText, t.text = dropRoot (Text.trim text.toList) ∧ t.Reads call) ∧
    ∀ (t u : CallText) (call other : Call), t.text = dropRoot (Text.trim text.toList) →
      u.text = dropRoot (Text.trim text.toList) → t.Reads call → u.Reads other → t = u := by
  constructor
  · intro call
    constructor
    · exact reads_of_parse
    · rintro ⟨hscript, t, htext, hreads⟩
      exact parse_of_reads hscript htext hreads
  · intro t u call other ht hu hreads hother
    exact hreads.unique hother (ht.trans hu.symm)

/-- A closing parenthesis in a string ends neither the filter nor the call. -/
theorem parse_parenthesis_in_string :
    parse "db.c.find(\x7b\"a\": \")]\"\x7d).limit(1)" =
      .ok (.call ⟨none, "c", .find, [.obj [("a", .str ")]")]], ".limit(1)"⟩) ∧
    ∀ (t : CallText) (call : Call), t.text = "c.find(\x7b\"a\": \")]\"\x7d).limit(1)".toList →
      t.Reads call → t.block = "\x7b\"a\": \")]\"\x7d".toList := by
  have hiff := parse_eq_call_iff "db.c.find(\x7b\"a\": \")]\"\x7d).limit(1)"
  have hbody : dropRoot (Text.trim "db.c.find(\x7b\"a\": \")]\"\x7d).limit(1)".toList) =
      "c.find(\x7b\"a\": \")]\"\x7d).limit(1)".toList := by decide
  have hnames : headNames "c.find".toList = [['c'], Operation.find.name.toList] := by decide
  have htokens : Json.tokens "[\x7b\"a\": \")]\"\x7d]".toList = some [.openArray, .openObject,
      .leaf (.str "a"), .colon, .leaf (.str ")]"), .closeObject, .closeArray] := by rfl
  have hlist : Json.Denotes Json.maxDepth "[\x7b\"a\": \")]\"\x7d]".toList
      (.arr [.obj [("a", .str ")]")]]) := by
    rw [← Json.readWithin?_eq_some_iff, Json.readWithin?, htokens]
    rfl
  have hreads : CallText.Reads
      ⟨"c.find".toList, "\x7b\"a\": \")]\"\x7d".toList, ".limit(1)".toList⟩
      ⟨none, "c", .find, [.obj [("a", .str ")]")]], ".limit(1)"⟩ := by
    refine ⟨by decide, ?_, .list hlist, rfl⟩
    rw [hnames]
    exact .collection (by decide)
  rw [hbody] at hiff
  refine ⟨(hiff.1 _).mpr ⟨by decide, _, by decide, hreads⟩, ?_⟩
  intro t call htext ht
  rw [hiff.2 t _ call _ htext (by decide) ht hreads]

end Query

end ShellQuery
