/-
Why a tree has no clause.

* **`Expr.compileAt_eq_error`** — the error of a tree is that of one of its leaves, unless the
  tree is too deep;
* **`Comparison.SchemaFault`** — what the schema and the options can have against a
  comparison: it has no column, its column stands for no field, or its operator or its
  value do not fit the type of the field;
* **`Comparison.schemaFault_of_compile`** — without a converter there is no other error, as
  long as the comparison has a value;
* **`compile_parsed_schemaFault`** — so a query that was read can fail for these reasons
  only, and a tree is refused as too deep only if it is.

Design notes.  The level of a node is counted from the root, the depth of a tree from its
leaves.  What ties them together is `level + depth`, which a step down from a node to its
deeper side leaves as it is.
-/
import FilterQuery.Proofs.Clause.Composition
import FilterQuery.Proofs.Query.Completeness

namespace FilterQuery

/-- What the schema and the options have against a comparison. -/
inductive Comparison.SchemaFault (c : Comparison) (catalog : Catalog) (o : Options) : Error → Prop
  | missingColumn : c.column = "" → SchemaFault c catalog o (.missingColumn c)
  | unknownColumn {name : String} :
      (o.alias? c.column).getD c.column = name → catalog.get? name = none →
        SchemaFault c catalog o (.unknownColumn name)
  | unsupportedOp {f : Field} :
      c.resolve catalog o = .ok f → f.allows c.op = false →
        SchemaFault c catalog o (.unsupportedCompareOp c.op f.type f.column)
  | invalidValue {f : Field} {raw : String} {source : DataError} :
      c.resolve catalog o = .ok f → c.value = some raw → f.type.read raw = .error source →
        SchemaFault c catalog o (.invalidValue raw c.render source)

variable {catalog : Catalog} {o : Options}

/-! ### A leaf -/

theorem Field.read_eq_error {f : Field} {raw context : String} {x : Error}
    (h : f.read raw context = .error x) :
    ∃ source, f.type.read raw = .error source ∧ x = .invalidValue raw context source := by
  rw [Field.read] at h
  split at h
  · cases h
  · next source hread =>
    cases h
    exact ⟨source, hread, rfl⟩

namespace Comparison

theorem resolve_eq_error {c : Comparison} {x : Error} (h : c.resolve catalog o = .error x) :
    c.SchemaFault catalog o x := by
  rw [resolve] at h
  split at h
  · cases h
  · next hnone =>
    cases h
    exact .unknownColumn rfl hnone

/-- **Without a converter, a comparison fails for its column, its operator or its value**, or
because it has no value at all. -/
theorem schemaFault_of_compile {c : Comparison} {bound : Nat} {x : Error}
    (hconv : ∀ name, o.converter? name = none) (h : c.compile catalog o bound = .error x) :
    c.SchemaFault catalog o x ∨ c.value = none ∧ x = .unboundComparison c := by
  rw [compile] at h
  split at h
  · next hempty =>
    cases h
    exact .inl (.missingColumn hempty)
  · cases hf : c.resolve catalog o with
    | error y =>
      rw [hf] at h
      cases h
      exact .inl (resolve_eq_error hf)
    | ok f =>
      simp only [hf, hconv f.column] at h
      -- The field is known; what is left are the checks of its type.
      rw [Field.compile] at h
      split at h
      · next hvalue =>
        cases h
        exact .inr ⟨hvalue, rfl⟩
      · next raw hvalue =>
        split at h
        · next hop =>
          cases h
          exact .inl (.unsupportedOp hf (by simpa using hop))
        · split at h
          · next y hread =>
            cases h
            obtain ⟨source, hsource, rfl⟩ := Field.read_eq_error hread
            exact .inl (.invalidValue hf hvalue hsource)
          · cases h

end Comparison

/-! ### A tree -/

namespace Expr

/-- **The error of a tree is that of one of its leaves, unless the tree is too deep.** -/
theorem compileAt_eq_error {level bound : Nat} {e : Expr} {x : Error}
    (h : compileAt catalog o level bound e = .error x) :
    (depthLimit + 1 < level + e.depth ∧ ∃ subject, x = .tooDeep depthLimit subject) ∨
      ∃ c ∈ e.leaves, ∃ bound', c.compile catalog o bound' = .error x := by
  induction e generalizing level bound with
  | comparison c =>
    by_cases hlevel : level ≤ depthLimit
    · rw [compileAt_comparison hlevel] at h
      exact .inr ⟨c, by simp [leaves_comparison], bound, h⟩
    · rw [compileAt_of_lt (Nat.not_le.mp hlevel)] at h
      cases h
      refine .inl ⟨?_, _, rfl⟩
      rw [depth_comparison]
      omega
  | logical l op r ihl ihr =>
    rw [compileAt] at h
    split at h
    · cases h
      refine .inl ⟨?_, _, rfl⟩
      have hdepth := one_le_depth (logical l op r)
      omega
    · -- What one side fails with, the whole tree fails with, and it is one level deeper.
      rw [depth_logical, leaves_logical]
      cases hl : compileAt catalog o (level + 1) bound l with
      | error y =>
        rw [hl] at h
        cases h
        rcases ihl hl with ⟨hdeep, hx⟩ | ⟨c, hc, hfail⟩
        · exact .inl ⟨by omega, hx⟩
        · exact .inr ⟨c, List.mem_append_left _ hc, hfail⟩
      | ok a =>
        simp only [hl] at h
        cases hr : compileAt catalog o (level + 1) (bound + a.args.length) r with
        | error y =>
          rw [hr] at h
          cases h
          rcases ihr hr with ⟨hdeep, hx⟩ | ⟨c, hc, hfail⟩
          · exact .inl ⟨by omega, hx⟩
          · exact .inr ⟨c, List.mem_append_right _ hc, hfail⟩
        | ok b =>
          rw [hr] at h
          cases h

end Expr

/-- **A query that was read can fail for the schema only.**  Its tree is not too deep and all
its values are there, so without converters the only errors are those of a comparison
whose column is empty or stands for no field, or whose operator or value do not fit the
type of the field.  Any tree at all is refused as too deep only if it is deeper than the
limit. -/
theorem compile_parsed_schemaFault :
    (∀ query e, parse query = .ok e →
      e.depth ≤ depthLimit ∧
        ∀ (catalog : Catalog) (o : Options), (∀ name, o.converter? name = none) →
          ∀ x, e.compile catalog o = .error x → ∃ c ∈ e.leaves, c.SchemaFault catalog o x) ∧
    (∀ (e : Expr) (catalog : Catalog) (o : Options), (∀ name, o.converter? name = none) →
      ∀ limit subject, e.compile catalog o = .error (.tooDeep limit subject) →
        depthLimit < e.depth) := by
  constructor
  · intro query e hparse
    obtain ⟨ts, -, hgroup, -, hdepth⟩ := parse_derives hparse
    refine ⟨hdepth, fun catalog o hconv x hx => ?_⟩
    rcases Expr.compileAt_eq_error hx with ⟨hdeep, -⟩ | ⟨c, hc, bound, hfail⟩
    · omega
    · rcases Comparison.schemaFault_of_compile hconv hfail with hfault | ⟨hnone, -⟩
      · exact ⟨c, hc, hfault⟩
      · have hvalue := hgroup.value_leaves c hc
        rw [hnone] at hvalue
        cases hvalue
  · intro e catalog o hconv limit subject hx
    rcases Expr.compileAt_eq_error hx with ⟨hdeep, -⟩ | ⟨c, -, bound, hfail⟩
    · omega
    · -- No leaf says that a tree is too deep.
      rcases Comparison.schemaFault_of_compile hconv hfail with hfault | ⟨-, hunbound⟩
      · cases hfault
      · cases hunbound

/-- A tree that only grows to the left, of depth `n + 1`. -/
def tower : Nat → Expr
  | 0 => .comparison ⟨"age", .eq, some "1"⟩
  | n + 1 => .logical (tower n) .and (.comparison ⟨"age", .eq, some "1"⟩)

theorem compileAt_tower (catalog : Catalog) (o : Options) {level n : Nat}
    (h : depthLimit < level + n) (bound : Nat) :
    ∃ subject, (tower n).compileAt catalog o level bound = .error (.tooDeep depthLimit subject) := by
  induction n generalizing level with
  | zero => exact ⟨_, Expr.compileAt_of_lt h bound _⟩
  | succ n ih =>
    by_cases hlevel : depthLimit < level
    · exact ⟨_, Expr.compileAt_of_lt hlevel bound _⟩
    · obtain ⟨subject, hleft⟩ := ih (by omega : depthLimit < level + 1 + n)
      refine ⟨subject, ?_⟩
      rw [tower, Expr.compileAt, if_neg hlevel, hleft]

/-- A query whose second value is no age, and a tree one level deeper than the limit. -/
theorem schemaFault_age :
    (let x := Error.invalidValue "old" "(comparison: age > old)" (.mismatch .int "old")
      ∃ e, parse "Na_me=x and age>old" = .ok e ∧ e.depth ≤ depthLimit ∧
        e.compile personCatalog .standard = .error x ∧
          ∃ c ∈ e.leaves, c.SchemaFault personCatalog .standard x) ∧
    (∃ subject, (tower depthLimit).compile personCatalog .standard =
      .error (.tooDeep depthLimit subject) ∧ depthLimit < (tower depthLimit).depth) := by
  have hconv : ∀ name, Options.standard.converter? name = none := fun _ => rfl
  constructor
  · have hparse : parse "Na_me=x and age>old" = .ok (.logical
        (.comparison ⟨"Na_me", .eq, some "x"⟩) .and
        (.comparison ⟨"age", .gt, some "old"⟩)) := by decide +kernel
    obtain ⟨hdepth, hfault⟩ := compile_parsed_schemaFault.1 _ _ hparse
    exact ⟨_, hparse, hdepth, rfl, hfault personCatalog .standard hconv _ rfl⟩
  · obtain ⟨subject, hdeep⟩ := compileAt_tower personCatalog .standard
      (by omega : depthLimit < 1 + depthLimit) 0
    exact ⟨subject, hdeep, compile_parsed_schemaFault.2 _ _ _ hconv _ _ hdeep⟩

end FilterQuery
