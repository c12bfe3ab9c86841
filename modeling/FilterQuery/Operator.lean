/-
The operators of the query language.

* **`CompareOp`** — the seven comparisons;
* **`Connective`** — the two ways to join conditions;
* **`CompareOp.ofSymbol?_symbol`**, **`Connective.ofWord?_word`** — every operator is
  found by its own spelling.
-/
namespace FilterQuery

/-- A comparison of a column with a value. -/
inductive CompareOp
  | eq
  | ne
  | gt
  | ge
  | lt
  | le
  | contains
deriving DecidableEq

/-- A connective between two conditions. -/
inductive Connective
  | and
  | or
deriving DecidableEq

namespace CompareOp

/-- All comparisons, in the order of their declaration. -/
def all : List CompareOp :=
  [eq, ne, gt, ge, lt, le, contains]

/-- The spelling of a comparison in a query. -/
def symbol : CompareOp → String
  | eq => "="
  | ne => "!="
  | gt => ">"
  | ge => ">="
  | lt => "<"
  | le => "<="
  | contains => "%"

/-- The spelling of a comparison in a condition. -/
def sql : CompareOp → String
  | contains => " like "
  | op => op.symbol

/-- The comparison with a given spelling in a query. -/
def ofSymbol? (s : String) : Option CompareOp :=
  all.find? (·.symbol == s)

theorem ofSymbol?_symbol (op : CompareOp) : ofSymbol? op.symbol = some op := by
  cases op <;> decide

end CompareOp

namespace Connective

/-- The two connectives. -/
def all : List Connective :=
  [and, or]

/-- The spelling of a connective, in queries and in conditions. -/
def word : Connective → String
  | and => "and"
  | or => "or"

/-- The connective with a given spelling; capitals are not accepted here. -/
def ofWord? (s : String) : Option Connective :=
  all.find? (·.word == s)

theorem ofWord?_word (op : Connective) : ofWord? op.word = some op := by
  cases op <;> decide

end Connective

end FilterQuery
