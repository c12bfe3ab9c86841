/-
Expressions: the trees that queries stand for.

* **`Comparison`** — a column, an operator and, if it is known, a value;
* **`Expr`** — comparisons joined by connectives;
* **`Expr.render`** — the form in which a tree is shown in messages.
-/
import FilterQuery.Operator

namespace FilterQuery

/-- The comparison of a column with a value. -/
structure Comparison where
  column : String
  op : CompareOp
  value : Option String
deriving DecidableEq

/-- A tree of comparisons. -/
inductive Expr
  | comparison (c : Comparison)
  | logical (left : Expr) (op : Connective) (right : Expr)
deriving DecidableEq

/-- The number of levels that a tree may have, and of groups that may enclose a part of
a query. -/
def depthLimit : Nat := 256

namespace Comparison

/-- The comparison has a column and a value. -/
def isComplete (c : Comparison) : Bool :=
  !c.column.isEmpty && c.value.isSome

/-- The comparison between parentheses, `nil` standing for a missing value. -/
def render (c : Comparison) : String :=
  "(comparison: " ++ c.column ++ " " ++ c.op.symbol ++ " " ++ c.value.getD "nil" ++ ")"

end Comparison

namespace Expr

/-- The tree with all its groups between parentheses. -/
def render : Expr → String
  | comparison c => c.render
  | logical l op r =>
    "(logical: " ++ l.render ++ " " ++ op.word ++ " " ++ r.render ++ ")"

/-- The number of nodes of a tree. -/
def size : Expr → Nat
  | comparison _ => 1
  | logical l _ r => l.size + r.size + 1

end Expr

end FilterQuery
