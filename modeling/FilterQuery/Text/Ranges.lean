/-
Sets of characters given by intervals of code points.

* **`Ranges.contains`** — membership of a code point;
* **`Ranges.contains_iff`** — a code point is a member exactly when one of the
  intervals holds it.
-/
namespace FilterQuery.Text

/-- A set of code points, given by closed intervals. -/
abbrev Ranges := List (Nat × Nat)

/-- Some interval of the table holds the code point. -/
def Ranges.contains (table : Ranges) (n : Nat) : Bool :=
  table.any fun r => r.1 ≤ n && n ≤ r.2

theorem Ranges.contains_iff {table : Ranges} {n : Nat} :
    table.contains n = true ↔ ∃ r ∈ table, r.1 ≤ n ∧ n ≤ r.2 := by
  simp [Ranges.contains]

end FilterQuery.Text
