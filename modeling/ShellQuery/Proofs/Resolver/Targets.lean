import ShellQuery.Proofs.Query.Script
import ShellQuery.Proofs.Resolver.Sent

/-!
# Where the commands of a query go

What a query sends is fixed by its text and the settings: the operation of a call gives the kind of
the command, its names give the collection, and the database is the one that it names or else the
configured one.  A script is evaluated, if that is allowed, and nothing else is.

The main statement is `commands_keep_to_query`.
-/

namespace ShellQuery

open Outcome

/-- The database that a query means: the one that it names, or else the configured one, unless its
    name is blank. -/
inductive MeansDatabase (configured : Option String) : Option String → String → Prop where
  | named (name : String) : MeansDatabase configured (some name) name
  | default {name : String} (hset : configured = some name)
      (hname : ∃ c ∈ name.toList, Text.isBlank c = false) : MeansDatabase configured none name

/-- Whether the command is one to insert, change or remove documents, or to run a program.  An
    aggregation is none, whatever its stages are. -/
def Command.isWrite : Command → Bool
  | insert _ _ | update _ _ _ _ _ | delete _ _ _ | findAndModify _ _ _ _ | eval _ _ => true
  | find _ _ _ _ | aggregate _ _ | listDatabases => false

namespace Resolver

variable {configured : Option String} {allow : Bool} {text : String} {b : Backend}

/-! ## Databases -/

theorem blankOnly_eq_false_iff {name : String} :
    Text.blankOnly name = false ↔ ∃ c ∈ name.toList, Text.isBlank c = false := by
  simp [Text.blankOnly]

theorem database_make_eq_some_iff {name : String} :
    (make configured allow).database = some name ↔
      configured = some name ∧ ∃ c ∈ name.toList, Text.isBlank c = false := by
  rw [make, Option.filter_eq_some_iff, ← blankOnly_eq_false_iff, Bool.not_eq_true']

/-- A resolver has the database that a query means. -/
theorem databaseFor_make_eq_ok_iff {named : Option String} {database : String} :
    (make configured allow).databaseFor named = .ok database ↔
      MeansDatabase configured named database := by
  cases named with
  | some name =>
    constructor
    · intro h
      obtain rfl := Except.ok.inj h
      exact .named name
    · intro h
      cases h
      rfl
  | none =>
    constructor
    · intro h
      rw [databaseFor] at h
      split at h
      · next name hname =>
        obtain ⟨hset, hblank⟩ := database_make_eq_some_iff.mp hname
        cases h
        exact .default hset hblank
      · cases h
    · intro h
      cases h with
      | default hset hname => rw [databaseFor, database_make_eq_some_iff.mpr ⟨hset, hname⟩]

/-! ## Scripts -/

variable {r : Resolver} {call : Call} {script : Script} {c : Command}

/-- A script with a database is evaluated on it, if that is allowed. -/
theorem commands_of_script (b : Backend) {database : String}
    (hparse : Query.parse text = .ok (.script script)) (hallow : r.allowServerEval = true)
    (hdatabase : r.databaseFor script.database = .ok database) :
    r.commands text b = [.eval database (ScriptText.program script.text)] := by
  have hscript := scriptRequest_eq_ok_iff.mpr ⟨hallow, database, hdatabase, rfl⟩
  exact commands_of_send (request_eq_ok_iff.mpr (.inr ⟨script, hparse, hscript⟩))

/-- The one command of a script evaluates it. -/
theorem mem_commands_iff_of_script (hparse : Query.parse text = .ok (.script script)) :
    c ∈ r.commands text b ↔
      r.allowServerEval = true ∧ ∃ database, r.databaseFor script.database = .ok database ∧
        c = .eval database (ScriptText.program script.text) := by
  constructor
  · intro h
    obtain ⟨asked, hrequest, rfl⟩ := mem_commands_iff.mp h
    obtain ⟨call, hparse', -⟩ | ⟨script', hparse', hscript⟩ := request_eq_ok_iff.mp hrequest
    · rw [hparse] at hparse'
      cases hparse'
    · rw [hparse] at hparse'
      cases hparse'
      obtain ⟨hallow, database, hdatabase, heq⟩ := scriptRequest_eq_ok_iff.mp hscript
      cases heq
      exact ⟨hallow, database, hdatabase, rfl⟩
  · rintro ⟨hallow, database, hdatabase, rfl⟩
    rw [commands_of_script b hparse hallow hdatabase]
    apply List.mem_singleton_self

/-! ## Calls -/

/-- The command of a call carries out its operation on its collection. -/
theorem aim_of_mem (hparse : Query.parse text = .ok (.call call)) (h : c ∈ r.commands text b) :
    c.operation? = some call.operation ∧
      ∃ database, r.databaseFor call.database = .ok database ∧
        c.namespace? = some ⟨database, call.collection⟩ := by
  obtain ⟨asked, hrequest, rfl⟩ := mem_commands_iff.mp h
  rw [request_of_parse hparse] at hrequest
  obtain ⟨database, hdatabase, hasked⟩ := callRequest_eq_ok_iff.mp hrequest
  obtain ⟨hoperation, hnamespace⟩ := aim_of_send hasked
  exact ⟨(Command.operation?_stamp asked b.ids).trans hoperation, database, hdatabase,
    (Command.namespace?_stamp asked b.ids).trans hnamespace⟩

/-- Nothing is sent for `save`. -/
theorem operation_ne_save_of_mem (hparse : Query.parse text = .ok (.call call))
    (h : c ∈ r.commands text b) : call.operation ≠ .save := by
  intro hop
  have hcommand := (aim_of_mem hparse h).1
  rw [hop] at hcommand
  cases c <;> cases hcommand

theorem isWrite_eq_false_of_operation?
    (hop : c.operation? = some .find ∨ c.operation? = some .aggregate) : c.isWrite = false := by
  cases c with
  | find | aggregate | listDatabases => rfl
  | insert | update | delete | findAndModify | eval => rcases hop with hop | hop <;> cases hop

/-- A call without a database fails for want of one, whatever it asks for. -/
theorem request_of_no_database (hparse : Query.parse text = .ok (.call call))
    (hdatabase : ∀ database, r.databaseFor call.database ≠ .ok database) :
    r.request text = .error (ParameterFault.error .noDatabase) := by
  rw [request_of_parse hparse, callRequest]
  cases hfound : r.databaseFor call.database with
  | ok database => exact absurd hfound (hdatabase database)
  | error e =>
    rw [databaseFor_eq_error hfound]
    rfl

/-! ## Main result -/

/-- What is sent for is a call or a script, and its ending tells which. -/
theorem parse_of_mem (h : c ∈ r.commands text b) :
    (∃ call, Query.parse text = .ok (.call call) ∧
      (Text.trim text.toList).getLast? ≠ some ';') ∨
    ∃ script, Query.parse text = .ok (.script script) ∧
      (Text.trim text.toList).getLast? = some ';' := by
  obtain ⟨asked, hrequest, -⟩ := mem_commands_iff.mp h
  obtain ⟨call, hparse, -⟩ | ⟨script, hparse, -⟩ := request_eq_ok_iff.mp hrequest
  · exact .inl ⟨call, hparse, (Query.reads_of_parse hparse).1⟩
  · exact .inr ⟨script, hparse, Query.semicolon_of_parse hparse⟩

/-- A script is evaluated, on the database that it means, if that is allowed; a text that ends with
    a semicolon sends nothing else, and no other text is evaluated.  Any other command is the one of
    the operation of a call, on its collection and the database that it means.  A call that means no
    database sends nothing and fails for want of one.  Reading never sends a write. -/
theorem commands_keep_to_query (configured : Option String) (allow : Bool) (text : String)
    (b : Backend) :
    (∀ database code, .eval database code ∈ (make configured allow).commands text b →
      allow = true ∧ (Text.trim text.toList).getLast? = some ';') ∧
    ((Text.trim text.toList).getLast? = some ';' →
      ∀ c ∈ (make configured allow).commands text b, ∃ script database,
        Query.parse text = .ok (.script script) ∧
        MeansDatabase configured script.database database ∧
        c = .eval database (ScriptText.program script.text)) ∧
    ((Text.trim text.toList).getLast? ≠ some ';' →
      ∀ c ∈ (make configured allow).commands text b, ∃ call database,
        Query.parse text = .ok (.call call) ∧ MeansDatabase configured call.database database ∧
        call.operation ≠ .save ∧ c.operation? = some call.operation ∧
        c.namespace? = some ⟨database, call.collection⟩) ∧
    ∀ call, Query.parse text = .ok (.call call) →
      ((∀ database, ¬ MeansDatabase configured call.database database) →
        ((make configured allow).resolve text b).1 = .error (ParameterFault.error .noDatabase) ∧
        (make configured allow).commands text b = []) ∧
      (call.operation = .find ∨ call.operation = .aggregate →
        ∀ c ∈ (make configured allow).commands text b, c.isWrite = false) := by
  refine ⟨?_, ?_, ?_, ?_⟩
  · intro database code h
    obtain ⟨call, hparse, -⟩ | ⟨script, hparse, hend⟩ := parse_of_mem h
    · -- the command of a call carries out an operation, which an evaluation does not
      cases (aim_of_mem hparse h).1
    · exact ⟨((mem_commands_iff_of_script hparse).mp h).1, hend⟩
  · intro hend c h
    obtain ⟨call, -, hcall⟩ | ⟨script, hparse, -⟩ := parse_of_mem h
    · exact absurd hend hcall
    · obtain ⟨-, database, hdatabase, hc⟩ := (mem_commands_iff_of_script hparse).mp h
      exact ⟨script, database, hparse, databaseFor_make_eq_ok_iff.mp hdatabase, hc⟩
  · intro hend c h
    obtain ⟨call, hparse, -⟩ | ⟨script, -, hscript⟩ := parse_of_mem h
    · obtain ⟨hoperation, database, hdatabase, hnamespace⟩ := aim_of_mem hparse h
      exact ⟨call, database, hparse, databaseFor_make_eq_ok_iff.mp hdatabase,
        operation_ne_save_of_mem hparse h, hoperation, hnamespace⟩
    · exact absurd hscript hend
  · intro call hparse
    constructor
    · intro hnone
      have hrequest : (make configured allow).request text =
          .error (ParameterFault.error .noDatabase) := by
        apply request_of_no_database hparse
        intro database hdatabase
        exact hnone database (databaseFor_make_eq_ok_iff.mp hdatabase)
      rw [resolve_of_request_error b hrequest]
      exact ⟨rfl, commands_of_error hrequest⟩
    · intro hread c h
      apply isWrite_eq_false_of_operation?
      rw [(aim_of_mem hparse h).1, Option.some.injEq, Option.some.injEq]
      exact hread

/-- A database that the text names comes before the configured one. -/
theorem commands_keep_to_query_dotted :
    ∃ c, (make (some "d") true).commands "db.shop.orders.archive.find()" (.fresh []) = [c] ∧
      c.operation? = some .find ∧ c.namespace? = some ⟨"shop", "orders.archive"⟩ ∧
      c.isWrite = false := by
  have hparse : Query.parse "db.shop.orders.archive.find()" =
      .ok (.call ⟨some "shop", "orders.archive", .find, [], ""⟩) := by rfl
  have hrequest : (make (some "d") true).request "db.shop.orders.archive.find()" =
      .ok (.send (.find ⟨"shop", "orders.archive"⟩ [] none .none)) := by rfl
  refine ⟨_, commands_of_send hrequest, ?_⟩
  have hmem : Command.find ⟨"shop", "orders.archive"⟩ [] none .none ∈
      (make (some "d") true).commands "db.shop.orders.archive.find()" (.fresh []) := by
    rw [commands_of_send hrequest]
    apply List.mem_singleton_self
  obtain ⟨-, -, hcall, hreads⟩ :=
    commands_keep_to_query (some "d") true "db.shop.orders.archive.find()" (.fresh [])
  obtain ⟨call, database, hparse', hdatabase, -, hoperation, hnamespace⟩ :=
    hcall (by decide) _ hmem
  rw [hparse] at hparse'
  cases hparse'
  cases hdatabase
  exact ⟨hoperation, hnamespace, (hreads _ hparse).2 (.inl rfl) _ hmem⟩

end Resolver

end ShellQuery
