/-
The clause of a tree is made of the clauses of its leaves.

* **`Expr.conditionOf`** — the conditions of the leaves, joined in the shape of the tree;
* **`Expr.compileAt_eq_assemble`** — with question marks for placeholders, a tree that is
  not too deep is compiled leaf by leaf, each as if it stood alone;
* **`Expr.assemble_eq_ok`**, **`Expr.assemble_eq_error`** — what comes of it if all leaves
  have a clause, and if some have none;
* **`Expr.depth_le_of_compileAt`** — what has a clause is not too deep;
* **`compile_eq_of_leaves`** — all together.

Design notes.  A tree hands the number of bound arguments from leaf to leaf.  With
question marks nothing is made of this number (`Comparison.compile_sequential`), and
this is the only place where the style of the placeholders matters.
-/
import FilterQuery.Clause.Compile

namespace FilterQuery

/-! ### One node -/

namespace Clause

theorem renumber_sequential (next : Nat) (cs : List Char) :
    renumber .sequential next cs = cs := by
  fun_induction renumber .sequential next cs with
  | case1 => rfl
  | case2 next cs ih => simp [ih, Placeholder.mark]
  | case3 next c cs _ ih => rw [ih]

theorem embed_sequential (bound : Nat) (column : String) (clause : Clause) :
    clause.embed .sequential bound column = clause.embed .sequential 0 column := by
  rw [embed, embed, renumber_sequential, renumber_sequential]

end Clause

section

variable {catalog : Catalog} {o : Options}

/-- With question marks, a comparison does not depend on what was bound before it. -/
theorem Comparison.compile_sequential (hstyle : o.settings.placeholder = .sequential)
    (c : Comparison) (bound : Nat) : c.compile catalog o bound = c.compile catalog o 0 := by
  have hfield : ∀ f : Field, f.compile o bound c = f.compile o 0 c := by
    intro f
    rw [Field.compile, Field.compile, hstyle]
    rfl
  rw [Comparison.compile, Comparison.compile]
  simp only [hfield, hstyle, Clause.embed_sequential bound]

namespace Expr

theorem compileAt_of_lt {level : Nat} (hlevel : depthLimit < level) (bound : Nat) (e : Expr) :
    compileAt catalog o level bound e = .error (.tooDeep depthLimit e.depthSubject) := by
  cases e with
  | comparison c => exact if_pos hlevel
  | logical l op r => exact if_pos hlevel

theorem compileAt_comparison {level : Nat} (hlevel : level ≤ depthLimit) (bound : Nat)
    (c : Comparison) :
    compileAt catalog o level bound (comparison c) = c.compile catalog o bound := by
  rw [compileAt, if_neg (Nat.not_lt.mpr hlevel)]

theorem compile_comparison (c : Comparison) :
    (comparison c).compile catalog o = c.compile catalog o 0 :=
  compileAt_comparison (by decide) 0 c

/-- What a joined tree is compiled to: both sides, the right one after the arguments of
the left one. -/
theorem compileAt_logical_eq_ok_iff {level bound : Nat} {l r : Expr} {op : Connective}
    {k : Clause} :
    compileAt catalog o level bound (logical l op r) = .ok k ↔
      level ≤ depthLimit ∧ ∃ a b, compileAt catalog o (level + 1) bound l = .ok a ∧
        compileAt catalog o (level + 1) (bound + a.args.length) r = .ok b ∧ k = a.join op b := by
  rw [compileAt]
  by_cases hlevel : depthLimit < level
  · simp [hlevel, Nat.not_le.mpr hlevel]
  · rw [if_neg hlevel]
    cases compileAt catalog o (level + 1) bound l with
    | error e => simp
    | ok a =>
      cases hr : compileAt catalog o (level + 1) (bound + a.args.length) r with
      | error e => simp [hr]
      | ok b => simp [hr, Nat.not_lt.mp hlevel, eq_comm]

/-- What has a clause is not too deep. -/
theorem depth_le_of_compileAt {level bound : Nat} {e : Expr} {k : Clause}
    (h : compileAt catalog o level bound e = .ok k) : level + e.depth ≤ depthLimit + 1 := by
  induction e generalizing level bound k with
  | comparison c =>
    rw [depth_comparison]
    by_cases hlevel : depthLimit < level
    · rw [compileAt, if_pos hlevel] at h
      cases h
    · omega
  | logical l op r ihl ihr =>
    obtain ⟨-, a, b, hl, hr, -⟩ := compileAt_logical_eq_ok_iff.mp h
    have hleft := ihl hl
    have hright := ihr hr
    rw [depth_logical]
    omega

theorem compile_of_compileAt {level bound : Nat} {c : Comparison} {k : Clause}
    (h : compileAt catalog o level bound (comparison c) = .ok k) :
    c.compile catalog o bound = .ok k := by
  have hdepth := depth_le_of_compileAt h
  rw [depth_comparison] at hdepth
  rw [compileAt_comparison (by omega)] at h
  exact h

/-- In a tree that has a clause, every leaf has one. -/
theorem exists_compile_of_compileAt {level bound : Nat} {e : Expr} {k : Clause}
    (h : compileAt catalog o level bound e = .ok k) :
    ∀ c ∈ e.leaves, ∃ bound' k', c.compile catalog o bound' = .ok k' := by
  induction e generalizing level bound k with
  | comparison c =>
    rw [leaves_comparison]
    intro c' hc'
    obtain rfl := List.mem_singleton.mp hc'
    exact ⟨bound, k, compile_of_compileAt h⟩
  | logical l op r ihl ihr =>
    obtain ⟨-, a, b, hl, hr, -⟩ := compileAt_logical_eq_ok_iff.mp h
    rw [leaves_logical]
    exact List.forall_mem_append.mpr ⟨ihl hl, ihr hr⟩

/-! ### Leaf by leaf -/

/-- The clause of a tree, given what comes of its leaves; the left side goes first. -/
def assemble (leaf : Comparison → Except Error Clause) : Expr → Except Error Clause
  | comparison c => leaf c
  | logical l op r =>
    match l.assemble leaf with
    | .error e => .error e
    | .ok left =>
      match r.assemble leaf with
      | .error e => .error e
      | .ok right => .ok (left.join op right)

/-- The conditions of the leaves, every join between parentheses. -/
def conditionOf (leaf : Comparison → String) : Expr → String
  | comparison c => leaf c
  | logical l op r =>
    "(" ++ l.conditionOf leaf ++ " " ++ op.word ++ " " ++ r.conditionOf leaf ++ ")"

theorem compileAt_eq_assemble (hstyle : o.settings.placeholder = .sequential) {e : Expr}
    {level : Nat} (hdepth : level + e.depth ≤ depthLimit + 1) (bound : Nat) :
    compileAt catalog o level bound e = e.assemble fun c => c.compile catalog o 0 := by
  induction e generalizing level bound with
  | comparison c =>
    rw [depth_comparison] at hdepth
    rw [compileAt_comparison (by omega), Comparison.compile_sequential hstyle]
    rfl
  | logical l op r ihl ihr =>
    rw [depth_logical] at hdepth
    rw [compileAt, if_neg (by omega), assemble, ihl (by omega)]
    cases l.assemble fun c => c.compile catalog o 0 with
    | error e => rfl
    | ok left =>
      -- The right side is compiled with more arguments bound, which it does not notice.
      have hright := ihr (by omega : level + 1 + r.depth ≤ _) (bound + left.args.length)
      cases hr : r.assemble fun c => c.compile catalog o 0 with
      | error e =>
        rw [hr] at hright
        simp only [hright]
      | ok right =>
        rw [hr] at hright
        simp only [hright]

/-- If every leaf has a clause, so has the tree. -/
theorem assemble_eq_ok {leaf : Comparison → Except Error Clause} {clause : Comparison → Clause}
    {e : Expr} (h : ∀ c ∈ e.leaves, leaf c = .ok (clause c)) :
    e.assemble leaf =
      .ok ⟨e.conditionOf fun c => (clause c).condition, e.leaves.flatMap fun c => (clause c).args⟩ := by
  induction e with
  | comparison c =>
    rw [leaves_comparison] at h ⊢
    rw [assemble, h c (List.mem_singleton.mpr rfl)]
    simp [conditionOf]
  | logical l op r ihl ihr =>
    rw [leaves_logical] at h ⊢
    obtain ⟨hl, hr⟩ := List.forall_mem_append.mp h
    rw [assemble, ihl hl, ihr hr, List.flatMap_append, conditionOf]
    rfl

theorem exists_assemble_eq_ok {leaf : Comparison → Except Error Clause} {e : Expr}
    (h : ∀ c ∈ e.leaves, ∃ k, leaf c = .ok k) : ∃ k, e.assemble leaf = .ok k := by
  let clause : Comparison → Clause := fun c => (leaf c).toOption.getD ⟨"", []⟩
  have hclause : ∀ c ∈ e.leaves, leaf c = .ok (clause c) := by
    intro c hc
    obtain ⟨k, hk⟩ := h c hc
    simp only [clause, hk]
    rfl
  exact ⟨_, assemble_eq_ok hclause⟩

/-- The error of a tree is that of its first leaf that has one. -/
theorem assemble_eq_error {leaf : Comparison → Except Error Clause} {e : Expr}
    {before after : List Comparison} {c : Comparison} {err : Error}
    (hleaves : e.leaves = before ++ c :: after) (hbefore : ∀ b ∈ before, ∃ k, leaf b = .ok k)
    (hc : leaf c = .error err) : e.assemble leaf = .error err := by
  induction e generalizing before after with
  | comparison c' =>
    rw [leaves_comparison] at hleaves
    rcases List.singleton_eq_append_iff.mp hleaves with ⟨-, hcons⟩ | ⟨-, hcons⟩
    · cases hcons
      exact hc
    · cases hcons
  | logical l op r ihl ihr =>
    rw [leaves_logical] at hleaves
    rcases List.append_eq_append_iff.mp hleaves with ⟨as, rfl, hr⟩ | ⟨bs, hl, hbs⟩
    · -- The leaf stands on the right, and all leaves on the left have a clause.
      obtain ⟨hleft, hright⟩ := List.forall_mem_append.mp hbefore
      obtain ⟨k, hk⟩ := exists_assemble_eq_ok hleft
      rw [assemble, hk, ihr hr hright]
    · cases bs with
      | cons b bs =>
        cases hbs
        rw [assemble, ihl hl hbefore]
      | nil =>
        -- The first leaf with an error is the first one on the right.
        rw [List.append_nil] at hl
        have hr : r.leaves = [] ++ c :: after := hbs.symm
        obtain ⟨k, hk⟩ := exists_assemble_eq_ok (hl ▸ hbefore)
        rw [assemble, hk, ihr hr nofun]

end Expr

end

/-- **The clause of a tree is made of the clauses of its leaves**, and its error is the
error of the first leaf that has one.  With question marks for placeholders, let every
leaf be compiled alone.  If all leaves have a clause, the arguments of the tree are
theirs one after the other, and its condition is theirs joined in the shape of the
tree.  A tree that is too deep has no clause. -/
theorem compile_eq_of_leaves (catalog : Catalog) (o : Options)
    (hstyle : o.settings.placeholder = .sequential) (e : Expr) :
    (e.depth ≤ depthLimit →
      (∀ clause : Comparison → Clause,
        (∀ c ∈ e.leaves, (Expr.comparison c).compile catalog o = .ok (clause c)) →
          e.compile catalog o =
            .ok ⟨e.conditionOf fun c => (clause c).condition,
              e.leaves.flatMap fun c => (clause c).args⟩) ∧
      (∀ before c after err, e.leaves = before ++ c :: after →
        (∀ b ∈ before, ∃ k, (Expr.comparison b).compile catalog o = .ok k) →
          (Expr.comparison c).compile catalog o = .error err →
            e.compile catalog o = .error err)) ∧
    (depthLimit < e.depth → ∃ err, e.compile catalog o = .error err) := by
  constructor
  · intro hdepth
    have hassemble : e.compile catalog o = e.assemble fun c => c.compile catalog o 0 :=
      Expr.compileAt_eq_assemble hstyle (by omega) 0
    simp only [Expr.compile_comparison]
    rw [hassemble]
    constructor
    · intro clause hclause
      exact Expr.assemble_eq_ok hclause
    · intro before c after err hleaves hbefore hc
      exact Expr.assemble_eq_error hleaves hbefore hc
  · intro hdeep
    cases h : e.compile catalog o with
    | error err => exact ⟨err, rfl⟩
    | ok k =>
      have hdepth := Expr.depth_le_of_compileAt h
      omega

/-- A catalogue of persons: a name, an age and a day of birth. -/
def personCatalog : Catalog :=
  ⟨((Table.empty.put "name" ⟨"name", .string⟩).put "age" ⟨"age", .int⟩).put "born"
    ⟨"born", .time⟩⟩

/-- Question marks, and a converter for ages that also lets through an age of zero. -/
def personOptions : Options :=
  { Options.standard with
    converters := Table.empty.put "age" fun column op value =>
      .ok ⟨column ++ op.sql ++ "? or " ++ column ++ "=?", [.text (value.getD ""), .int 0]⟩ }

/-- A leaf of the plain kind beside one with a converter, and an error to the left of
another one. -/
theorem compile_person_of_leaves :
    personOptions.settings.placeholder = .sequential ∧
    (Expr.logical (.comparison ⟨"Na_me", .contains, some "x"⟩) .and
      (.comparison ⟨"AGE", .gt, some "7"⟩)).compile personCatalog personOptions =
        .ok ⟨"(name like ? and age>? or age=?)", [.text "%x%", .text "7", .int 0]⟩ ∧
    (Expr.logical (.comparison ⟨"name", .eq, some "x"⟩) .or
      (.logical (.comparison ⟨"born", .eq, none⟩) .and
        (.comparison ⟨"nose", .eq, some "x"⟩))).compile personCatalog personOptions =
          .error (.unboundComparison ⟨"born", .eq, none⟩) := by
  refine ⟨rfl, ?_, ?_⟩
  · let clause : Comparison → Clause := fun c =>
      if c.column = "AGE" then ⟨"age>? or age=?", [.text "7", .int 0]⟩
      else ⟨"name like ?", [.text "%x%"]⟩
    have h := ((compile_eq_of_leaves personCatalog personOptions rfl (.logical
      (.comparison ⟨"Na_me", .contains, some "x"⟩) .and (.comparison ⟨"AGE", .gt, some "7"⟩))).1
      (by simp [Expr.depth_logical, Expr.depth_comparison, depthLimit])).1 clause
    simp only [Expr.leaves_logical, Expr.leaves_comparison, List.cons_append, List.nil_append,
      List.forall_mem_cons] at h
    exact h ⟨rfl, rfl, nofun⟩
  · refine ((compile_eq_of_leaves personCatalog personOptions rfl _).1
      (by simp [Expr.depth_logical, Expr.depth_comparison, depthLimit])).2
      [⟨"name", .eq, some "x"⟩] ⟨"born", .eq, none⟩ [⟨"nose", .eq, some "x"⟩] _ ?_ ?_ rfl
    · simp [Expr.leaves_logical, Expr.leaves_comparison]
    · simp only [List.forall_mem_cons]
      exact ⟨⟨⟨"name=?", [.text "x"]⟩, rfl⟩, nofun⟩

end FilterQuery
