/-
Values do not reach the condition.

The text of a condition is decided by the columns, the comparisons and the shape of a
tree.  The values of a query go into the arguments only.

* **`Expr.Alike`** — two trees that differ in their values at most;
* **`Comparison.Unconverted`** — no converter has a say in what a comparison is compiled
  to;
* **`Comparison.condition_of_compile`** — the condition of such a comparison, in which its
  value does not occur;
* **`compile_condition_eq_of_alike`** — trees that differ in their values at most have the
  same condition.

Design notes.  With numbered placeholders the condition of a right side depends on how
many arguments the left side binds.  The induction therefore carries the number of
arguments along.
-/
import FilterQuery.Proofs.Clause.Composition

namespace FilterQuery

/-- Two trees of the same shape, with the same connectives, columns and comparisons. -/
inductive Expr.Alike : Expr → Expr → Prop
  | comparison {c d : Comparison} :
      c.column = d.column → c.op = d.op → Alike (.comparison c) (.comparison d)
  | logical {l l' r r' : Expr} (op : Connective) :
      Alike l l' → Alike r r' → Alike (.logical l op r) (.logical l' op r')

/-- The field that a comparison speaks of, if there is one, has no converter. -/
def Comparison.Unconverted (c : Comparison) (catalog : Catalog) (o : Options) : Prop :=
  ∀ f, c.resolve catalog o = .ok f → o.converter? f.column = none

variable {catalog : Catalog} {o : Options}

/-- What a field makes of a comparison, without an error. -/
theorem Field.exists_of_compile {f : Field} {c : Comparison} {bound : Nat} {k : Clause}
    (h : f.compile o bound c = .ok k) :
    f.allows c.op = true ∧ ∃ raw v, c.value = some raw ∧ f.read raw c.render = .ok v ∧
      k = ⟨f.columnText o ++ c.op.sql ++ o.settings.placeholder.mark (bound + 1),
        [Field.argument c.op v]⟩ := by
  rw [Field.compile] at h
  split at h
  · cases h
  · next raw hvalue =>
    split at h
    · cases h
    · next hop =>
      split at h
      · cases h
      · next v hread =>
        cases h
        exact ⟨by simpa using hop, raw, v, hvalue, hread, rfl⟩

theorem Field.condition_of_compile {f : Field} {c : Comparison} {bound : Nat} {k : Clause}
    (h : f.compile o bound c = .ok k) :
    k.condition = f.columnText o ++ c.op.sql ++ o.settings.placeholder.mark (bound + 1) ∧
      k.args.length = 1 := by
  obtain ⟨-, raw, v, -, -, rfl⟩ := Field.exists_of_compile h
  exact ⟨rfl, rfl⟩

/-- A comparison without a converter is compiled by its field. -/
theorem Comparison.exists_field_compile {c : Comparison} {bound : Nat} {k : Clause}
    (hc : c.Unconverted catalog o) (h : c.compile catalog o bound = .ok k) :
    ∃ f, c.resolve catalog o = .ok f ∧ f.compile o bound c = .ok k := by
  rw [Comparison.compile] at h
  split at h
  · cases h
  · cases hf : c.resolve catalog o with
    | error e =>
      rw [hf] at h
      cases h
    | ok f =>
      simp only [hf, hc f hf] at h
      exact ⟨f, rfl, h⟩

/-- The condition of a comparison without a converter names its field, its operator and a
placeholder. -/
theorem Comparison.condition_of_compile {c : Comparison} {bound : Nat} {k : Clause}
    (hc : c.Unconverted catalog o) (h : c.compile catalog o bound = .ok k) :
    ∃ f, c.resolve catalog o = .ok f ∧
      k.condition = f.columnText o ++ c.op.sql ++ o.settings.placeholder.mark (bound + 1) ∧
      k.args.length = 1 := by
  obtain ⟨f, hf, hk⟩ := exists_field_compile hc h
  exact ⟨f, hf, Field.condition_of_compile hk⟩

theorem Comparison.resolve_congr {c d : Comparison} (h : c.column = d.column) :
    c.resolve catalog o = d.resolve catalog o := by
  rw [resolve, resolve, h]

theorem Comparison.Unconverted.congr {c d : Comparison} (h : c.column = d.column)
    (hc : c.Unconverted catalog o) : d.Unconverted catalog o := by
  intro f hf
  rw [← resolve_congr h] at hf
  exact hc f hf

namespace Expr

/-- Two trees that are alike, compiled after as many arguments, have the same condition
and bind as many arguments. -/
theorem Alike.compileAt {e e' : Expr} (he : Alike e e')
    (hconv : ∀ c ∈ e.leaves, c.Unconverted catalog o) {level bound : Nat} {k k' : Clause}
    (h : compileAt catalog o level bound e = .ok k)
    (h' : compileAt catalog o level bound e' = .ok k') :
    k.condition = k'.condition ∧ k.args.length = k'.args.length := by
  induction he generalizing level bound k k' with
  | @comparison c d hcolumn hop =>
    have hlevel : level ≤ depthLimit := by
      have hdepth := depth_le_of_compileAt h
      rw [depth_comparison] at hdepth
      omega
    rw [compileAt_comparison hlevel] at h h'
    have hc := hconv c (by simp [leaves_comparison])
    obtain ⟨f, hf, hcond, hlen⟩ := Comparison.condition_of_compile hc h
    obtain ⟨f', hf', hcond', hlen'⟩ := Comparison.condition_of_compile (hc.congr hcolumn) h'
    -- Both leaves speak of the same field.
    rw [← Comparison.resolve_congr hcolumn, hf] at hf'
    cases hf'
    rw [hcond, hcond', hlen, hlen', hop]
    exact ⟨rfl, rfl⟩
  | logical op _ _ ihl ihr =>
    rw [leaves_logical] at hconv
    obtain ⟨hleft, hright⟩ := List.forall_mem_append.mp hconv
    obtain ⟨-, a, b, hl, hr, rfl⟩ := compileAt_logical_eq_ok_iff.mp h
    obtain ⟨-, a', b', hl', hr', rfl⟩ := compileAt_logical_eq_ok_iff.mp h'
    obtain ⟨hcondl, hlenl⟩ := ihl hleft hl hl'
    -- The left sides bind as many arguments, so the right sides start at the same number.
    rw [← hlenl] at hr'
    obtain ⟨hcondr, hlenr⟩ := ihr hright hr hr'
    constructor
    · simp only [Clause.join, hcondl, hcondr]
    · simp only [Clause.join, List.length_append, hlenl, hlenr]

end Expr

/-- **Values do not reach the condition.**  If two trees differ in their values at most, and
no converter has a say, then their conditions are the same, whatever the style of the
placeholders. -/
theorem compile_condition_eq_of_alike (catalog : Catalog) (o : Options) (e₁ e₂ : Expr)
    (halike : e₁.Alike e₂) (hconv : ∀ c ∈ e₁.leaves, c.Unconverted catalog o) (k₁ k₂ : Clause)
    (h₁ : e₁.compile catalog o = .ok k₁) (h₂ : e₂.compile catalog o = .ok k₂) :
    k₁.condition = k₂.condition :=
  (halike.compileAt hconv h₁ h₂).1

/-- Numbered placeholders, and another column for names. -/
def numberedOptions : Options :=
  { Options.standard with
    settings := { Settings.standard with placeholder := .numbered }
    tableColumns := Table.empty.put "name" "p.name" }

/-- A tree with places for three values. -/
def personTree (part day whole : String) : Expr :=
  .logical (.comparison ⟨"name", .contains, some part⟩) .and
    (.logical (.comparison ⟨"born", .ge, some day⟩) .or
      (.comparison ⟨"Name", .eq, some whole⟩))

/-- Harmless values and hostile ones, with the same condition and other arguments. -/
theorem condition_personTree_eq :
    ∃ k₁ k₂ : Clause,
      (personTree "x" "2023-01-02" "y").compile personCatalog numberedOptions = .ok k₁ ∧
      (personTree "' or 1=1 --" "1999-12-31" "$9").compile personCatalog numberedOptions =
        .ok k₂ ∧
      k₁.args ≠ k₂.args ∧ k₁.condition = k₂.condition := by
  have halike : (personTree "x" "2023-01-02" "y").Alike
      (personTree "' or 1=1 --" "1999-12-31" "$9") :=
    .logical .and (.comparison rfl rfl) (.logical .or (.comparison rfl rfl) (.comparison rfl rfl))
  have hconv : ∀ c ∈ (personTree "x" "2023-01-02" "y").leaves,
      c.Unconverted personCatalog numberedOptions := fun _ _ _ _ => rfl
  have h₁ : (personTree "x" "2023-01-02" "y").compile personCatalog numberedOptions =
      .ok ⟨"(p.name like $1 and (born::date>=$2 or p.name=$3))",
        [.text "%x%", .date ⟨2023, 1, 2, by decide⟩, .text "y"]⟩ := rfl
  have h₂ : (personTree "' or 1=1 --" "1999-12-31" "$9").compile personCatalog numberedOptions =
      .ok ⟨"(p.name like $1 and (born::date>=$2 or p.name=$3))",
        [.text "%' or 1=1 --%", .date ⟨1999, 12, 31, by decide⟩, .text "$9"]⟩ := rfl
  refine ⟨_, _, h₁, h₂, by decide, ?_⟩
  exact compile_condition_eq_of_alike personCatalog numberedOptions _ _ halike hconv _ _ h₁ h₂

end FilterQuery
