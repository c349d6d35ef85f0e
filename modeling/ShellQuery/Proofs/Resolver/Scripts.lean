import ShellQuery.Proofs.Resolver.Targets
import ShellQuery.Proofs.Text.Names

/-!
# Scripts that assign their outcome

The statement `db.C.F(A)R;` is evaluated on the default database.  With an assignment in front, as
in `V = db.C.F(A)R;`, the names in front of the parenthesis are `V = db`, `C` and `F`.  The first of
three names is a database, and so the statement is evaluated on a database named `V = db`.

The main statement is `assignment_names_database`.
-/

namespace ShellQuery

namespace Query

/-! ## Heads -/

/-- Only a root at the very front is dropped. -/
theorem dropRoot_append {first rest : List Char} (hdot : '.' ∉ first) (hlength : 3 ≤ first.length) :
    dropRoot (first ++ rest) = first ++ rest := by
  match first, hlength with
  | _ :: _ :: third :: _, _ =>
    have hthird : third ≠ '.' := by
      rintro rfl
      simp at hdot
    unfold dropRoot
    split
    · next heq =>
      -- the root would need a dot in third place
      cases heq
      exact absurd rfl hthird
    · rfl

theorem headNames_of_not_mem {name : List Char} (h : '.' ∉ name) :
    headNames name = [Text.trim name] := by
  rw [headNames, Text.splitOn_of_not_mem h, List.map_singleton]

theorem headNames_append_cons {name rest : List Char} (h : '.' ∉ name) :
    headNames (name ++ '.' :: rest) = Text.trim name :: headNames rest := by
  rw [headNames, Text.splitOn_append_cons h, List.map_cons, headNames]

theorem headNames_of_isIdentifier {first second : List Char} (hfirst : Text.IsIdentifier first)
    (hsecond : Text.IsIdentifier second) : headNames (first ++ '.' :: second) = [first, second] := by
  rw [headNames_append_cons hfirst.dot_not_mem, hfirst.trim_eq,
    headNames_of_not_mem hsecond.dot_not_mem, hsecond.trim_eq]

/-! ## Statements -/

/-- The statement that starts with a call: its head, the arguments between parentheses and what
    follows them. -/
def statement (head arguments rest : String) : String :=
  head ++ "(" ++ arguments ++ ")" ++ rest ++ ";"

theorem toList_statement (head arguments rest : String) :
    (statement head arguments rest).toList =
      head.toList ++ '(' :: (arguments.toList ++ ')' :: (rest.toList ++ [';'])) := by
  simp [statement]

/-- A statement is read as a script with the namespace of its head, whatever follows the head. -/
theorem parse_statement_eq {head collection : String} {database : Option String}
    (names : List Char) (arguments rest : String)
    (hfirst : ∀ c ∈ head.toList.head?, Text.isBlank c = false)
    (hdrop : ∀ after, dropRoot (head.toList ++ after) = names ++ after) (hplain : '(' ∉ names)
    (htarget : TargetDenotes (headNames names) database collection) :
    parse (statement head arguments rest) =
      .ok (.script ⟨database, collection, statement head arguments rest⟩) := by
  have hend : (statement head arguments rest).toList.getLast? = some ';' := by
    rw [statement, String.toList_append]
    exact List.getLast?_concat
  -- a statement has no blank ends: it starts with its head and ends with the semicolon
  have htrim : Text.trim (statement head arguments rest).toList =
      (statement head arguments rest).toList := by
    apply Text.trim_eq_self
    · rw [toList_statement, List.head?_append]
      cases hhead : head.toList.head? with
      | none =>
        rintro _ ⟨⟩
        decide
      | some first =>
        rw [hhead] at hfirst
        exact hfirst
    · rw [hend]
      rintro _ ⟨⟩
      decide
  have hbody : dropRoot (statement head arguments rest).toList =
      names ++ '(' :: (arguments.toList ++ ')' :: (rest.toList ++ [';'])) := by
    rw [toList_statement]
    apply hdrop
  rw [parse_eq_script_iff, htrim]
  exact ⟨hend, String.ofList_toList.symm, names, _, hbody, hplain, htarget⟩

section

variable {V C F : String} (A R : String)

theorem not_mem_dotted (hC : Text.IsIdentifier C.toList) (hF : Text.IsIdentifier F.toList) :
    '(' ∉ C.toList ++ '.' :: F.toList := by
  simp [hC.parenthesis_not_mem, hF.parenthesis_not_mem]

/-- A call of a function of a collection names no database. -/
theorem parse_statement_call (hC : Text.IsIdentifier C.toList) (hF : Text.IsIdentifier F.toList) :
    parse (statement ("db." ++ C ++ "." ++ F) A R) =
      .ok (.script ⟨none, C, statement ("db." ++ C ++ "." ++ F) A R⟩) := by
  apply parse_statement_eq (C.toList ++ '.' :: F.toList)
  · have hroot : Text.isBlank 'd' = false := by decide
    simpa using hroot
  · intro after
    simp [dropRoot]
  · exact not_mem_dotted hC hF
  · rw [headNames_of_isIdentifier hC hF]
    have h := TargetDenotes.collection hC.nonempty (Nat.le_refl [F.toList].length)
    rwa [String.ofList_toList] at h

/-- The first of three names is a database, whatever text it is, if it is too long for the root. -/
theorem parse_statement_named {name : String} (hC : Text.IsIdentifier C.toList)
    (hF : Text.IsIdentifier F.toList) (hlength : 3 ≤ name.toList.length)
    (hdot : '.' ∉ name.toList) (hparenthesis : '(' ∉ name.toList)
    (hfirst : ∀ c ∈ name.toList.head?, Text.isBlank c = false)
    (hlast : ∀ c ∈ name.toList.getLast?, Text.isBlank c = false) :
    parse (statement (name ++ "." ++ C ++ "." ++ F) A R) =
      .ok (.script ⟨some name, C, statement (name ++ "." ++ C ++ "." ++ F) A R⟩) := by
  have hhead : (name ++ "." ++ C ++ "." ++ F).toList =
      name.toList ++ '.' :: (C.toList ++ '.' :: F.toList) := by
    simp
  have hname : name.toList ≠ [] := by
    apply List.ne_nil_of_length_pos
    omega
  apply parse_statement_eq (name.toList ++ '.' :: (C.toList ++ '.' :: F.toList))
  · rw [hhead, List.head?_append_of_ne_nil _ hname]
    exact hfirst
  · intro after
    rw [hhead, List.append_assoc, dropRoot_append hdot hlength]
  · simp only [List.mem_append, List.mem_cons, not_or] at hparenthesis ⊢
    refine ⟨hparenthesis, by decide, ?_⟩
    simpa using not_mem_dotted hC hF
  · rw [headNames_append_cons hdot, Text.trim_eq_self hfirst hlast,
      headNames_of_isIdentifier hC hF]
    have hnames : ∀ n ∈ [C.toList], n ≠ [] := by
      simpa using hC.nonempty
    have h : TargetDenotes (name.toList :: ([C.toList] ++ [F.toList])) _ _ :=
      .database hname (List.cons_ne_nil _ _) hnames
    rw [List.intercalate_singleton, String.ofList_toList, String.ofList_toList] at h
    exact h

/-- With an assignment in front, the variable and the root are the name of a database. -/
theorem parse_statement_assignment (hV : Text.IsIdentifier V.toList)
    (hC : Text.IsIdentifier C.toList) (hF : Text.IsIdentifier F.toList) :
    parse (statement (V ++ " = db." ++ C ++ "." ++ F) A R) =
      .ok (.script ⟨some (V ++ " = db"), C, statement (V ++ " = db." ++ C ++ "." ++ F) A R⟩) := by
  have hdb : V ++ " = db." = V ++ " = db" ++ "." := by
    rw [String.append_assoc]
    rfl
  rw [hdb]
  apply parse_statement_named A R hC hF
  · simp
  · simpa using hV.dot_not_mem
  · simpa using hV.parenthesis_not_mem
  · intro c hc
    rw [String.toList_append, List.head?_append_of_ne_nil _ hV.nonempty] at hc
    exact hV.isBlank_eq_false (List.mem_of_mem_head? hc)
  · have hroot : Text.isBlank 'b' = false := by decide
    simpa using hroot

end

end Query

/-! ## Main result -/

namespace Resolver

variable {r : Resolver} {default V C F : String}

/-- A statement that calls a function of a collection is evaluated on the default database.  With an
    assignment in front it is not: the text up to the first dot, `V = db`, is taken for the name of
    the database. -/
theorem assignment_names_database (b : Backend) (hallow : r.allowServerEval = true)
    (hdefault : r.database = some default) (hV : Text.IsIdentifier V.toList)
    (hC : Text.IsIdentifier C.toList) (hF : Text.IsIdentifier F.toList) (A R : String) :
    r.commands (Query.statement ("db." ++ C ++ "." ++ F) A R) b =
        [.eval default (ScriptText.program (Query.statement ("db." ++ C ++ "." ++ F) A R))] ∧
      r.commands (Query.statement (V ++ " = db." ++ C ++ "." ++ F) A R) b =
        [.eval (V ++ " = db")
          (ScriptText.program (Query.statement (V ++ " = db." ++ C ++ "." ++ F) A R))] := by
  constructor
  · apply commands_of_script b (Query.parse_statement_call A R hC hF) hallow
    rw [databaseFor, hdefault]
  · apply commands_of_script b (Query.parse_statement_assignment A R hV hC hF) hallow
    rfl

/-- A statement that assigns to `result` goes to a database that is named after the assignment. -/
theorem assignment_names_database_of_result :
    (make (some "d") true).commands "result = db.users.findOne(1).name;" (.fresh []) =
      [.eval "result = db" "var result=null;result = db.users.findOne(1).name;result;"] := by
  have hV : Text.IsIdentifier "result".toList := by decide
  have hC : Text.IsIdentifier "users".toList := by decide
  have hF : Text.IsIdentifier "findOne".toList := by decide
  have hdefault : (make (some "d") true).database = some "d" := by decide
  exact (assignment_names_database (.fresh []) rfl hdefault hV hC hF "1" ".name").2

/-- The same call is evaluated on two databases, without and with an assignment in front. -/
theorem assignment_leaves_default :
    (make (some "d") true).commands "db.users.findOne();" (.fresh []) =
        [.eval "d" "var result=null;db.users.findOne();result;"] ∧
      (make (some "d") true).commands "result = db.users.findOne();" (.fresh []) =
        [.eval "result = db" "var result=null;result = db.users.findOne();result;"] :=
  ⟨rfl, rfl⟩

end Resolver

end ShellQuery
