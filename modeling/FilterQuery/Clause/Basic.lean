/-
Clauses: compiled conditions.

* **`Clause`** — a condition with placeholders, and the values bound to them in order;
* **`Placeholder`** — the two styles of placeholders;
* **`Converter`** — a rule of the caller's for a field, in place of the comparison that
  would be compiled.
-/
import FilterQuery.Error

namespace FilterQuery

/-- A condition with placeholders and its arguments, in the order of the placeholders. -/
structure Clause where
  condition : String
  args : List Value
deriving DecidableEq

/-- The style of placeholders: a question mark each, or a dollar sign and a number. -/
inductive Placeholder
  | sequential
  | numbered
deriving DecidableEq

/-- The `k`-th placeholder of a condition, counted from 1. -/
def Placeholder.mark : Placeholder → Nat → String
  | sequential, _ => "?"
  | numbered, k => "$" ++ String.ofList (Nat.toDigits 10 k)

/-- What a field compiles to by a rule of the caller's: a clause with question marks,
for the declared name of the field, the comparison and the value. -/
abbrev Converter := String → CompareOp → Option String → Except Error Clause

end FilterQuery
