import ShellQuery.Entries
import ShellQuery.Number.Double

/-!
# Document values

`Json` is the tree of a JSON text.  Integers are kept apart from floating-point numbers, and the
properties of an object stand in the order of the text.
-/

namespace ShellQuery

/-- A JSON value. -/
inductive Json where
  | null
  | bool (value : Bool)
  | int (value : Int)
  | float (value : Double)
  | str (value : String)
  | arr (items : List Json)
  | obj (entries : List (String × Json))
deriving Inhabited

namespace Json

/-! ## Views -/

/-- The properties of an object. -/
def entries? : Json → Option (Entries Json)
  | obj entries => some entries
  | _ => none

/-- The text of a string. -/
def text? : Json → Option String
  | str s => some s
  | _ => none

/-- The truth value of a boolean. -/
def bool? : Json → Option Bool
  | bool b => some b
  | _ => none

/-- An integer number, not one that was written with a point or an exponent. -/
def int? : Json → Option Int
  | int i => some i
  | _ => none

/-- A natural number from `least` on and below `bound`. -/
def natural? (least bound : Nat) : Json → Option Nat
  | int i => if least ≤ i ∧ i < bound then some i.toNat else none
  | _ => none

theorem natural?_eq_some_iff {least bound n : Nat} {v : Json} :
    v.natural? least bound = some n ↔ v = .int n ∧ least ≤ n ∧ n < bound := by
  cases v with
  | int i =>
    simp only [natural?, Option.ite_none_right_eq_some, Option.some.injEq, int.injEq]
    omega
  | null | bool | float | str | arr | obj => simp [natural?]

/-- The number zero in any of its forms. -/
def isZero : Json → Bool
  | int i => i == 0
  | float d => d.isZero
  | _ => false

/-- Whether the value is `null`. -/
def isNull : Json → Bool
  | null => true
  | _ => false

/-- The property of an object with the given name. -/
def property? : Json → String → Option Json
  | obj entries, key => Entries.find? entries key
  | _, _ => none

end Json

end ShellQuery
