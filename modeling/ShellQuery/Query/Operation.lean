/-!
# Operations on a collection

The fixed set of operations that a call can name.
-/

namespace ShellQuery

/-- An operation that a call names.  `save` is known only to be turned down. -/
inductive Operation where
  | find
  | findAndModify
  | aggregate
  | insert
  | update
  | remove
  | save
deriving DecidableEq, Repr

namespace Operation

/-- All operations in the order of their table. -/
def all : List Operation :=
  [find, findAndModify, aggregate, insert, update, remove, save]

/-- The name of an operation in a call. -/
def name : Operation → String
  | find => "find"
  | findAndModify => "findAndModify"
  | aggregate => "aggregate"
  | insert => "insert"
  | update => "update"
  | remove => "remove"
  | save => "save"

/-- Whether the operation writes and reports a summary of what it wrote. -/
def isWrite : Operation → Bool
  | insert | update | remove | save => true
  | find | findAndModify | aggregate => false

/-- The operation with exactly the given name. -/
def ofName? (s : String) : Option Operation :=
  all.find? fun op => op.name = s

/-- The place of an operation in the table, counted from zero. -/
def index (op : Operation) : Nat :=
  all.idxOf op

/-- Each operation is found under its own name. -/
theorem ofName?_name (op : Operation) : ofName? op.name = some op := by
  cases op <;> decide

end Operation

end ShellQuery
