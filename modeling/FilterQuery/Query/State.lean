/-
The state of reading a query.

A group is read from left to right.  Its operands are folded to the left as soon as
the next connective is met, so there are never more than two of them: the one on the
left with its connective, and the one that comes after it.

* **`Operand`** — a tree with its depth;
* **`Slot`** — the place of an operand in its group: the first, or the right side of a
  connective;
* **`Phase`** — what has been read since the slot was opened;
* **`State`** — the slots of the enclosing groups, the slot of the innermost group, and
  the phase.

Design notes.  An enclosing group always waits for an operand, namely for the group
inside it.  This is why it is kept as a slot, and closing a group needs no case for
an enclosing group that has no room for it.
-/
import FilterQuery.Expr.Basic

namespace FilterQuery

/-- A tree with its depth, which is known without walking over it again. -/
structure Operand where
  tree : Expr
  depth : Nat

/-- The place of an operand in its group. -/
inductive Slot
  | first
  | right (left : Operand) (op : Connective)

/-- What has been read since a slot was opened. -/
inductive Phase
  /-- Nothing: an operand is due. -/
  | due
  /-- A column: a comparison is due. -/
  | column (name : String)
  /-- A column and a comparison: a value is due. -/
  | operator (name : String) (op : CompareOp)
  /-- An operand, and whether a blank came after it. -/
  | filled (last : Operand) (afterBlank : Bool)

/-- The state of reading a query. -/
structure State where
  /-- The slots of the enclosing groups, the innermost first. -/
  outer : List Slot
  /-- The slot of the group that is being read. -/
  slot : Slot
  phase : Phase

namespace Operand

/-- A comparison, as an operand. -/
def ofComparison (c : Comparison) : Operand :=
  ⟨.comparison c, 1⟩

/-- Two operands joined by a connective. -/
def join (l : Operand) (op : Connective) (r : Operand) : Operand :=
  ⟨.logical l.tree op r.tree, 1 + max l.depth r.depth⟩

end Operand

/-- The operand that a group has become once its slot is filled. -/
def Slot.fill : Slot → Operand → Operand
  | first, a => a
  | right l op, a => l.join op a

/-- The state before the first token. -/
def State.start : State :=
  ⟨[], .first, .due⟩

end FilterQuery
