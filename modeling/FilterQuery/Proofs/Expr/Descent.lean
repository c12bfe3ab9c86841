/-
The walks over a tree are loops that end, and give what a descent gives.

A walk keeps the trees still to be visited on a stack.  Every round takes the uppermost one
off, changes the result so far, and puts the two sides of a joined tree in its place.

* **`Worklist`** — loops of this kind, for items and results of any type;
* **`Worklist.Ends`** — such a loop ends, after how many rounds, and with which result;
* **`Worklist.Solves.ends_iff`** — if every round keeps what a function makes of the stack, and
  takes one off the weight of the stack, then the loop ends after as many rounds as the stack
  weighs, with what the function makes of it;
* **`leafLoop_solves`**, **`depthLoop_solves`** — the two walks, on every stack: the weight is
  the number of nodes, and the functions are `leavesFrom` and `depthFrom`;
* **`Expr.fold`** — descent into both sides of a tree;
* **`length_leaves_le`**, **`depth_le_length_leaves`** — how many leaves a tree of some depth
  can have;
* **`walks_eq_fold`** — all of this for a tree on its own.

Design notes.  The leaves have to come from left to right, so their loop has the left side on
top.  For the depth any order will do, and its loop has the right side on top: `depthFrom`
goes the other way round, and `depthFrom_swap` says that it makes no difference.
-/
import FilterQuery.Expr.Walk
import FilterQuery.Numeral

namespace FilterQuery

/-! ### Loops over a stack -/

/-- A loop that takes the uppermost item off a stack until there is none left: what the visit
of an item makes of the result so far, and the items that take its place. -/
structure Worklist (α σ : Type) where
  visit : α → σ → σ
  opens : α → List α

namespace Worklist

variable {α σ : Type} {w : Worklist α σ} {result : List α → σ → σ} {weight : List α → Nat}

/-- Started on a stack, with a result so far, the loop ends after `n` rounds and gives `out`. -/
inductive Ends (w : Worklist α σ) : Nat → List α → σ → σ → Prop
  | empty (out : σ) : Ends w 0 [] out out
  | round {n : Nat} {a : α} {rest : List α} {acc out : σ} :
    Ends w n (w.opens a ++ rest) (w.visit a acc) out → Ends w (n + 1) (a :: rest) acc out

/-- What a function makes of the stack and of the result so far is the same before and after
every round, and every round makes the stack lighter by one. -/
structure Solves (w : Worklist α σ) (result : List α → σ → σ) (weight : List α → Nat) : Prop where
  result_nil : ∀ acc, result [] acc = acc
  result_round : ∀ a rest acc,
    result (w.opens a ++ rest) (w.visit a acc) = result (a :: rest) acc
  weight_nil : weight [] = 0
  weight_round : ∀ a rest, weight (w.opens a ++ rest) + 1 = weight (a :: rest)

namespace Solves

variable (h : w.Solves result weight)
include h

theorem eq_of_ends {n : Nat} {todo : List α} {acc out : σ} (hends : w.Ends n todo acc out) :
    n = weight todo ∧ out = result todo acc := by
  induction hends with
  | empty out => exact ⟨h.weight_nil.symm, (h.result_nil out).symm⟩
  | round _ ih =>
    obtain ⟨hn, hout⟩ := ih
    exact ⟨by rw [hn, h.weight_round], by rw [hout, h.result_round]⟩

theorem ends (todo : List α) (acc : σ) :
    w.Ends (weight todo) todo acc (result todo acc) := by
  -- By induction on the weight, which is the number of rounds to go: the stack may get longer.
  induction hn : weight todo generalizing todo acc with
  | zero =>
    cases todo with
    | nil =>
      rw [h.result_nil]
      exact .empty acc
    | cons a rest =>
      rw [← h.weight_round] at hn
      cases hn
  | succ n ih =>
    cases todo with
    | nil =>
      rw [h.weight_nil] at hn
      cases hn
    | cons a rest =>
      rw [← h.weight_round] at hn
      have hrest := ih (w.opens a ++ rest) (w.visit a acc) (Nat.succ.inj hn)
      rw [h.result_round] at hrest
      exact .round hrest

/-- **A loop ends on every stack**, after as many rounds as the stack weighs. -/
theorem ends_iff {n : Nat} {todo : List α} {acc out : σ} :
    w.Ends n todo acc out ↔ n = weight todo ∧ out = result todo acc := by
  constructor
  · exact h.eq_of_ends
  · rintro ⟨rfl, rfl⟩
    exact h.ends todo acc

end Solves

end Worklist

namespace Expr

/-! ### The two walks -/

/-- The sides of a joined tree, from left to right.  A comparison has none. -/
def sides : Expr → List Expr
  | comparison _ => []
  | logical l _ r => [l, r]

/-- The leaves found so far, with the tree if it is one itself. -/
def collect : Expr → List Comparison → List Comparison
  | comparison c, found => found ++ [c]
  | logical _ _ _, found => found

/-- The walk that finds the leaves.  The left side of a tree is visited before the right. -/
def leafLoop : Worklist Expr (List Comparison) where
  visit := collect
  opens := sides

/-- The walk that finds the deepest level.  Every tree has its level with it, and the right side
of a tree is visited before the left. -/
def depthLoop : Worklist (Expr × Nat) Nat where
  visit p deepest := max deepest p.2
  opens p := p.1.sides.reverse.map fun e => (e, p.2 + 1)

theorem totalSize_sides_append (e : Expr) (rest : List Expr) :
    totalSize (e.sides ++ rest) + 1 = totalSize (e :: rest) := by
  cases e with
  | comparison c =>
    show totalSize rest + 1 = 1 + totalSize rest
    rw [Nat.add_comm]
  | logical l op r =>
    show l.size + (r.size + totalSize rest) + 1 = l.size + r.size + 1 + totalSize rest
    omega

theorem totalSize_swap (e e' : Expr) (rest : List Expr) :
    totalSize (e :: e' :: rest) = totalSize (e' :: e :: rest) := by
  rw [totalSize, totalSize, totalSize, totalSize, Nat.add_left_comm]

/-- **The loop for the leaves**, on every stack and after any leaves found before. -/
theorem leafLoop_solves :
    leafLoop.Solves (fun todo found => leavesFrom todo found.reverse) totalSize where
  result_nil found := by rw [leavesFrom, List.reverse_reverse]
  result_round e rest found := by
    cases e with
    | comparison c =>
      show leavesFrom rest (found ++ [c]).reverse = _
      rw [List.reverse_append, leavesFrom]
      rfl
    | logical l op r =>
      show leavesFrom (l :: r :: rest) found.reverse = _
      rw [leavesFrom]
  weight_nil := rfl
  weight_round := totalSize_sides_append

theorem depthFrom_swap (p q : Expr × Nat) (rest : List (Expr × Nat)) (deepest : Nat) :
    depthFrom (p :: q :: rest) deepest = depthFrom (q :: p :: rest) deepest := by
  have hcons : ∀ (p q : Expr × Nat), depthFrom (p :: q :: rest) deepest =
      depthFrom rest (max (max deepest (depthFrom [p] 0)) (depthFrom [q] 0)) := by
    intro p q
    rw [show p :: q :: rest = [p] ++ ([q] ++ rest) from rfl, depthFrom_append, depthFrom_append,
      depthFrom_eq_max [q], depthFrom_eq_max [p]]
  rw [hcons, hcons, Nat.max_right_comm]

/-- **The loop for the depth**, on every stack and after any level reached before. -/
theorem depthLoop_solves :
    depthLoop.Solves depthFrom fun todo => totalSize (todo.map Prod.fst) where
  result_nil deepest := by rw [depthFrom]
  result_round p rest deepest := by
    obtain ⟨e, level⟩ := p
    cases e with
    | comparison c =>
      show depthFrom rest (max deepest level) = _
      rw [depthFrom]
    | logical l op r =>
      -- The loop goes on with the right side, `depthFrom` with the left one.
      show depthFrom ((r, level + 1) :: (l, level + 1) :: rest) (max deepest level) = _
      rw [depthFrom_swap, depthFrom]
  weight_nil := rfl
  weight_round p rest := by
    obtain ⟨e, level⟩ := p
    rw [List.map_cons, ← totalSize_sides_append]
    cases e with
    | comparison c => rfl
    | logical l op r => exact congrArg (· + 1) (totalSize_swap r l _)

/-! ### Descent -/

/-- Descent into a tree: what a leaf gives, and what a join makes of its two sides. -/
def fold {α : Type} (leaf : Comparison → α) (join : α → Connective → α → α) : Expr → α
  | comparison c => leaf c
  | logical l op r => join (l.fold leaf join) op (r.fold leaf join)

/-- A function that answers from its answers for the two sides is a descent. -/
theorem eq_fold {α : Type} {f : Expr → α} {leaf : Comparison → α} {join : α → Connective → α → α}
    (hleaf : ∀ c, f (comparison c) = leaf c)
    (hjoin : ∀ l op r, f (logical l op r) = join (f l) op (f r)) (e : Expr) :
    f e = e.fold leaf join := by
  induction e with
  | comparison c => rw [hleaf, fold]
  | logical l op r ihl ihr => rw [hjoin, ihl, ihr, fold]

/-! ### Leaves and depth -/

/-- A first level has one leaf, and every further level at most doubles their number. -/
theorem length_leaves_le {e : Expr} {n : Nat} (h : e.depth ≤ n + 1) : e.leaves.length ≤ 2 ^ n := by
  induction e generalizing n with
  | comparison c =>
    rw [leaves_comparison, List.length_singleton]
    exact Nat.one_le_two_pow
  | logical l op r ihl ihr =>
    have hl := one_le_depth l
    rw [depth_logical] at h
    rw [leaves_logical, List.length_append]
    cases n with
    | zero => omega
    | succ m =>
      -- Both sides have a level less than the tree.
      have hleft : l.leaves.length ≤ 2 ^ m := ihl (by omega)
      have hright : r.leaves.length ≤ 2 ^ m := ihr (by omega)
      rw [Nat.pow_succ]
      omega

/-- The side with most levels has a leaf for each of them, and the other side has one more. -/
theorem depth_le_length_leaves (e : Expr) : e.depth ≤ e.leaves.length := by
  induction e with
  | comparison c =>
    rw [leaves_comparison, depth_comparison]
    exact Nat.le_of_eq List.length_singleton.symm
  | logical l op r ihl ihr =>
    have hl := one_le_depth l
    have hr := one_le_depth r
    rw [leaves_logical, depth_logical, List.length_append]
    omega

/-! ### The walks from the root -/

/-- **Both walks end and give what a descent gives.**  Each takes one round for every node of
the tree.  The first finds the leaves of the left side and then those of the right side, the
second finds one level more than the deeper side has.  There is at least one leaf for every
level, and every level after the first at most doubles their number. -/
theorem walks_eq_fold (e : Expr) :
    (∀ n out, leafLoop.Ends n [e] [] out ↔ n = e.size ∧ out = e.leaves) ∧
      e.leaves = e.fold (fun c => [c]) (fun l _ r => l ++ r) ∧
      (∀ n out, depthLoop.Ends n [(e, 1)] 0 out ↔ n = e.size ∧ out = e.depth) ∧
      e.depth = e.fold (fun _ => 1) (fun l _ r => 1 + max l r) ∧
      e.leaves.length ≤ 2 ^ (e.depth - 1) ∧ e.depth ≤ e.leaves.length := by
  have hdepth : e.depth ≤ e.depth - 1 + 1 := Nat.le_of_eq (Nat.sub_add_cancel (one_le_depth e)).symm
  refine ⟨?_, ?_, ?_, ?_, length_leaves_le hdepth, depth_le_length_leaves e⟩
  · intro n out
    rw [leafLoop_solves.ends_iff]
    rfl
  · exact eq_fold leaves_comparison leaves_logical e
  · intro n out
    rw [depthLoop_solves.ends_iff]
    rfl
  · refine eq_fold depth_comparison ?_ e
    intro l op r
    rw [depth_logical, Nat.add_comm]

end Expr

end FilterQuery
