/-
Walks over a tree: its leaves and its depth.

A tree may be far deeper than what is worth compiling, so both walks keep the parts
still to be visited on a list instead of descending by recursion.

* **`Expr.leaves`** — the comparisons of a tree, from left to right;
* **`Expr.depth`** — the number of nodes on the longest way from the root to a leaf;
* **`leaves_logical`**, **`depth_logical`** — on a joined tree, the two walks are what
  a descent into both sides would give.
-/
import FilterQuery.Expr.Basic

namespace FilterQuery

namespace Expr

/-- The number of nodes of all trees on a list. -/
def totalSize : List Expr → Nat
  | [] => 0
  | e :: rest => e.size + totalSize rest

/-- The leaves of the trees on the list, after those already found (latest first). -/
def leavesFrom : List Expr → List Comparison → List Comparison
  | [], found => found.reverse
  | comparison c :: rest, found => leavesFrom rest (c :: found)
  | logical l _ r :: rest, found => leavesFrom (l :: r :: rest) found
termination_by todo => totalSize todo
decreasing_by all_goals simp [totalSize, size] <;> omega

/-- The comparisons of a tree, from left to right. -/
def leaves (e : Expr) : List Comparison :=
  leavesFrom [e] []

/-- The deepest level reached by the trees on the list, whose roots stand at the given
levels, if none above `deepest` has been reached before. -/
def depthFrom : List (Expr × Nat) → Nat → Nat
  | [], deepest => deepest
  | (comparison _, level) :: rest, deepest => depthFrom rest (max deepest level)
  | (logical l _ r, level) :: rest, deepest =>
    depthFrom ((l, level + 1) :: (r, level + 1) :: rest) (max deepest level)
termination_by todo => totalSize (todo.map Prod.fst)
decreasing_by all_goals simp [totalSize, size] <;> omega

/-- The number of nodes on the longest way from the root to a leaf. -/
def depth (e : Expr) : Nat :=
  depthFrom [(e, 1)] 0

/-- Every leaf of the tree has a column and a value. -/
def isComplete (e : Expr) : Bool :=
  e.leaves.all Comparison.isComplete

theorem leavesFrom_append (s t : List Expr) (found : List Comparison) :
    leavesFrom (s ++ t) found = leavesFrom t (leavesFrom s found).reverse := by
  fun_induction leavesFrom s found with
  | case1 found => simp
  | case2 c rest found ih => rw [← ih]; simp [leavesFrom]
  | case3 found l op r rest ih => rw [← ih]; simp [leavesFrom]

theorem leavesFrom_found (s : List Expr) (a b : List Comparison) :
    leavesFrom s (a ++ b) = b.reverse ++ leavesFrom s a := by
  fun_induction leavesFrom s a with
  | case1 a => simp [leavesFrom]
  | case2 a c rest ih => rw [← ih]; simp [leavesFrom]
  | case3 a l op r rest ih => rw [← ih]; simp [leavesFrom]

theorem leaves_comparison (c : Comparison) : (comparison c).leaves = [c] := by
  simp [leaves, leavesFrom]

theorem leaves_logical (l : Expr) (op : Connective) (r : Expr) :
    (logical l op r).leaves = l.leaves ++ r.leaves := by
  rw [leaves, leavesFrom, show [l, r] = [l] ++ [r] from rfl, leavesFrom_append, ← leaves,
    ← List.nil_append l.leaves.reverse, leavesFrom_found, List.reverse_reverse, ← leaves]

theorem depthFrom_append (s t : List (Expr × Nat)) (deepest : Nat) :
    depthFrom (s ++ t) deepest = depthFrom t (depthFrom s deepest) := by
  fun_induction depthFrom s deepest with
  | case1 deepest => rfl
  | case2 deepest c level rest ih => rw [← ih]; simp [depthFrom]
  | case3 deepest l op r level rest ih => rw [← ih]; simp [depthFrom]

theorem depthFrom_max (s : List (Expr × Nat)) (a b : Nat) :
    depthFrom s (max a b) = max a (depthFrom s b) := by
  fun_induction depthFrom s b with
  | case1 b => rw [depthFrom]
  | case2 b c level rest ih => rw [depthFrom, ← ih, Nat.max_assoc]
  | case3 b l op r level rest ih => rw [depthFrom, ← ih, Nat.max_assoc]

theorem depthFrom_eq_max (s : List (Expr × Nat)) (deepest : Nat) :
    depthFrom s deepest = max deepest (depthFrom s 0) := by
  have hmax := depthFrom_max s deepest 0
  rwa [Nat.max_zero] at hmax

theorem depthFrom_succ (s : List (Expr × Nat)) (deepest : Nat) :
    depthFrom (s.map fun p => (p.1, p.2 + 1)) (deepest + 1) = depthFrom s deepest + 1 := by
  fun_induction depthFrom s deepest with
  | case1 deepest => simp [depthFrom]
  | case2 deepest c level rest ih =>
    rw [← ih, List.map_cons, depthFrom, Nat.add_max_add_right]
  | case3 deepest l op r level rest ih =>
    rw [← ih, List.map_cons, depthFrom, Nat.add_max_add_right]
    rfl

theorem depth_comparison (c : Comparison) : (comparison c).depth = 1 := by
  simp [depth, depthFrom]

theorem depth_logical (l : Expr) (op : Connective) (r : Expr) :
    (logical l op r).depth = max l.depth r.depth + 1 := by
  have hl := depthFrom_succ [(l, 1)] 0
  have hr := depthFrom_succ [(r, 1)] l.depth
  rw [depth, depthFrom, Nat.zero_max, show [(l, 1 + 1), (r, 1 + 1)] = [(l, 2)] ++ [(r, 2)] from rfl,
    depthFrom_append]
  simp only [List.map_cons, List.map_nil] at hl hr
  rw [hl, ← depth, hr, depthFrom_eq_max, ← depth]

theorem one_le_depth (e : Expr) : 1 ≤ e.depth := by
  cases e with
  | comparison c => exact Nat.le_of_eq (depth_comparison c).symm
  | logical l op r =>
    rw [depth_logical]
    omega

end Expr

end FilterQuery
