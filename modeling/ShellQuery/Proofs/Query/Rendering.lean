import ShellQuery.Proofs.Json.Writing
import ShellQuery.Proofs.Query.Head

/-!
# Rendering a call and reading it again

`Call.render` writes a call as a caller does who puts values into the text of a query: the names
behind the root with dots between them, the values in their compact form, and the tail.  Whatever
brackets, quotes and backslashes the strings of the values hold, the printer escapes them such that
the scan for the closing parenthesis passes over them.

The main statement is `Call.parse_render`.
-/

namespace ShellQuery

/-! ## Rendered calls -/

/-- The text of a call. -/
def Call.render (call : Call) : String :=
  "db." ++ call.database.elim "" (· ++ ".") ++ call.collection ++ "." ++ call.operation.name ++
    "(" ++ ",".intercalate (call.parameters.map Json.compact) ++ ")" ++ call.tail

/-- A name that is read as it is written: it has no blank ends and no parenthesis. -/
structure IsPlainName (name : List Char) : Prop where
  nonempty : name ≠ []
  trimmed : Text.trim name = name
  parenthesis : '(' ∉ name

instance (name : List Char) : Decidable (IsPlainName name) :=
  decidable_of_iff (name ≠ [] ∧ Text.trim name = name ∧ '(' ∉ name)
    ⟨fun ⟨hne, htrim, hplain⟩ => ⟨hne, htrim, hplain⟩,
      fun h => ⟨h.nonempty, h.trimmed, h.parenthesis⟩⟩

/-- A call whose parts can be told apart in its text.  Its values may nest one level less than a
    text may, since they are read as the items of a list. -/
structure Call.Renderable (call : Call) : Prop where
  database : ∀ d ∈ call.database, IsPlainName d.toList ∧ '.' ∉ d.toList
  collection : ∀ name ∈ Text.splitOn '.' call.collection.toList, IsPlainName name
  single : call.database = none → '.' ∉ call.collection.toList
  parameters : ∀ v ∈ call.parameters, v.Integral 126
  tail : Text.trim call.tail.toList = call.tail.toList
  notScript : call.tail.toList.getLast? ≠ some ';'

namespace Call

variable {call : Call}

/-- The head of a rendered call behind the root. -/
def head (call : Call) : List Char :=
  call.database.elim [] (·.toList ++ ['.']) ++
    (call.collection.toList ++ '.' :: call.operation.name.toList)

/-- The parts of a rendered call behind the root. -/
def parts (call : Call) : Query.CallText :=
  ⟨call.head, Json.writeList call.parameters, call.tail.toList⟩

theorem toList_render (call : Call) :
    call.render.toList = 'd' :: 'b' :: '.' :: call.parts.text := by
  have hcompact : String.toList ∘ Json.compact = Json.write :=
    funext fun v => String.toList_ofList
  cases hdatabase : call.database <;>
    simp [render, parts, head, Query.CallText.text, hdatabase, String.toList_intercalate,
      Json.writeList, hcompact]

/-! ## The head -/

theorem isPlainName_operation (op : Operation) :
    IsPlainName op.name.toList ∧ '.' ∉ op.name.toList := by
  cases op <;> decide

theorem splitOn_operation (op : Operation) : Text.splitOn '.' op.name.toList = [op.name.toList] :=
  Text.splitOn_of_not_mem (isPlainName_operation op).2

namespace Renderable

theorem parenthesis_not_mem_head (h : call.Renderable) : '(' ∉ call.head := by
  have hoperation := (isPlainName_operation call.operation).1.parenthesis
  have hcollection : '(' ∉ call.collection.toList := by
    intro hmem
    -- a character that is no dot stands in one of the parts between the dots
    obtain ⟨name, hname, hin⟩ := @Text.exists_mem_splitOn '.' _ _ hmem (by decide)
    exact (h.collection name hname).parenthesis hin
  cases hdatabase : call.database with
  | none => simp [head, hdatabase, hcollection, hoperation]
  | some d =>
    have hd := (h.database d hdatabase).1.parenthesis
    simp [head, hdatabase, hd, hcollection, hoperation]

/-- The names of a rendered head, none of which trimming changes. -/
theorem headNames_head (h : call.Renderable) :
    Query.headNames call.head =
      (call.database.map String.toList).toList ++
        (Text.splitOn '.' call.collection.toList ++ [call.operation.name.toList]) := by
  have hoperation := (isPlainName_operation call.operation).1.trimmed
  have hcollection : (Text.splitOn '.' call.collection.toList).map Text.trim =
      Text.splitOn '.' call.collection.toList :=
    (List.map_congr_left fun name hname => (h.collection name hname).trimmed).trans (List.map_id _)
  have hrest : Query.headNames (call.collection.toList ++ '.' :: call.operation.name.toList) =
      Text.splitOn '.' call.collection.toList ++ [call.operation.name.toList] := by
    rw [Query.headNames, Text.splitOn_append_mark, List.map_append, hcollection,
      splitOn_operation, List.map_singleton, hoperation]
  cases hdatabase : call.database with
  | none => simpa [head, hdatabase] using hrest
  | some d =>
    obtain ⟨hplain, hdot⟩ := h.database d hdatabase
    rw [Query.headNames] at hrest ⊢
    simp [head, hdatabase, Text.splitOn_append_cons hdot, hplain.trimmed, hrest]

theorem namesDenote_head (h : call.Renderable) :
    Query.NamesDenote (Query.headNames call.head) call.database call.collection
      call.operation := by
  have hnames : ∀ name ∈ Text.splitOn '.' call.collection.toList, name ≠ [] :=
    fun name hname => (h.collection name hname).nonempty
  rw [h.headNames_head]
  cases hdatabase : call.database with
  | none =>
    -- without a database the collection is a single name
    rw [Text.splitOn_of_not_mem (h.single hdatabase)] at hnames ⊢
    have hname := @Query.NamesDenote.collection call.collection.toList call.operation
      (hnames _ List.mem_cons_self)
    rwa [String.ofList_toList] at hname
  | some d =>
    -- behind a database all names up to the operation make up the collection
    have hd := (h.database d hdatabase).1.nonempty
    have hnames := @Query.NamesDenote.database d.toList _ call.operation hd
      (Text.splitOn_ne_nil '.' call.collection.toList) hnames
    rwa [String.ofList_toList, Text.intercalate_splitOn, String.ofList_toList] at hnames

/-! ## The whole text -/

/-- The items of a list nest one level less than the list. -/
theorem blockDenotes (h : call.Renderable) :
    Query.BlockDenotes (Json.writeList call.parameters) call.parameters := by
  have hlist := (Json.Integral.arr h.parameters).denotes
  rw [Json.write_arr] at hlist
  exact .list hlist

/-- A rendered call is cut at its last parenthesis in front of the tail. -/
theorem exists_render_eq (call : Call) :
    ∃ front, call.render.toList = 'd' :: (front ++ ')' :: call.tail.toList) :=
  ⟨'b' :: '.' :: (call.head ++ '(' :: Json.writeList call.parameters), by
    simp [toList_render, parts, Query.CallText.text]⟩

theorem trim_render (h : call.Renderable) : Text.trim call.render.toList = call.render.toList := by
  obtain ⟨front, htext⟩ := exists_render_eq call
  have hfirst : ∀ c ∈ ('d' :: front).head?, Text.isBlank c = false := by
    rintro _ ⟨⟩
    decide
  have htrim := @Text.trim_append_cons ('d' :: front) call.tail.toList ')' hfirst
    (List.cons_ne_nil _ _) (by decide)
  rw [Text.dropBlankEnd_of_trim h.tail] at htrim
  rw [htext]
  exact htrim

theorem getLast?_render (h : call.Renderable) : call.render.toList.getLast? ≠ some ';' := by
  obtain ⟨front, htext⟩ := exists_render_eq call
  rw [htext, ← List.cons_append, List.getLast?_append_cons]
  -- the last character is the parenthesis or that of the tail
  cases htail : call.tail.toList with
  | nil => decide
  | cons c r =>
    have hlast := h.notScript
    rwa [htail, ← List.getLast?_cons_cons] at hlast

end Renderable

/-! ## Main result -/

/-- A call is read from its own text: the same namespace, the same operation, the same values with
    their members in the same order, and the same tail. -/
theorem parse_render (h : call.Renderable) : Call.parse call.render = .ok call := by
  have hreads : call.parts.Reads call :=
    ⟨h.parenthesis_not_mem_head, h.namesDenote_head, h.blockDenotes, by
      rw [parts, h.tail, String.ofList_toList]⟩
  have hparse : Query.parse call.render = .ok (.call call) := by
    apply Query.parse_of_reads _ _ hreads
    · rw [h.trim_render]
      exact h.getLast?_render
    · -- the root is dropped with its dot
      rw [h.trim_render, toList_render]
      rfl
  rw [Call.parse, hparse]

/-- The strings hold brackets, both quotes, a backslash and control characters. -/
theorem parse_render_brackets_in_strings :
    Call.parse "db.shop.a.b.update(\x7b\"z)\\\"\":\"]')\\n\\u0001\",\"a\":-7\x7d,[null]).n()" =
      .ok ⟨some "shop", "a.b", .update,
        [.obj [("z)\"", .str "]')\n\x01"), ("a", .int (-7))], .arr [.null]], ".n()"⟩ := by
  have hrender : Call.Renderable ⟨some "shop", "a.b", .update,
      [.obj [("z)\"", .str "]')\n\x01"), ("a", .int (-7))], .arr [.null]], ".n()"⟩ := by
    refine ⟨by decide, by decide, nofun, ?_, by decide, by decide⟩
    have hseven : Json.IsInteger64 (-7) := by constructor <;> decide
    have hobject : Json.Integral 126 (.obj [("z)\"", .str "]')\n\x01"), ("a", .int (-7))]) :=
      .obj (by decide) (by simp [Json.Integral.str, Json.Integral.int hseven])
    have hlist : Json.Integral 126 (.arr [.null]) := .arr (by simp [Json.Integral.null])
    simp [hobject, hlist]
  have htext : Call.render ⟨some "shop", "a.b", .update,
      [.obj [("z)\"", .str "]')\n\x01"), ("a", .int (-7))], .arr [.null]], ".n()"⟩ =
      "db.shop.a.b.update(\x7b\"z)\\\"\":\"]')\\n\\u0001\",\"a\":-7\x7d,[null]).n()" := by
    rw [← String.toList_inj, toList_render]
    decide
  rw [← htext]
  exact parse_render hrender

end Call

end ShellQuery
