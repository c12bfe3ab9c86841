/-
The arguments of a clause, one for each comparison.

* **`Comparison.Binds`** — the value that a comparison with a field binds;
* **`Comparison.binds_of_compile`** — without a converter, a comparison has this value as its
  only argument;
* **`Expr.binds_of_compileAt`** — so the arguments of a tree are the values that its
  comparisons bind, from left to right;
* **`Expr.forall_mem_args_iff`** — what holds of all arguments, as a condition on the
  comparisons.
-/
import FilterQuery.Proofs.Clause.Noninterference
import Mathlib.Data.List.Forall2

namespace FilterQuery

/-- The comparison speaks of the field, the field allows its operator, and the argument is
made of what its text denotes for the field. -/
structure Comparison.Binds (c : Comparison) (catalog : Catalog) (o : Options) (f : Field)
    (v : Value) : Prop where
  resolve : c.resolve catalog o = .ok f
  allows : f.allows c.op = true
  reads : ∃ raw w, c.value = some raw ∧ f.type.read raw = .ok w ∧ v = Field.argument c.op w

namespace FieldType

/-- A field that holds text takes every text as it is. -/
theorem read_of_isString {type : FieldType} (h : type.isString = true) (raw : String) :
    type.read raw = .ok (.text raw) := by
  cases type with
  | string => rfl
  | nullableString => rfl
  | _ => cases h

/-- Only a field that holds text has texts for values. -/
theorem isString_of_read_eq_text {type : FieldType} {raw t : String}
    (h : type.read raw = .ok (.text t)) : type.isString = true ∧ raw = t := by
  rw [read_eq_ok_iff] at h
  cases type <;> simp [read?] at h
  all_goals exact ⟨rfl, h⟩

end FieldType

theorem Field.argument_contains (s : String) :
    argument .contains (.text s) = .text ("%" ++ s ++ "%") :=
  rfl

theorem Field.argument_of_ne {op : CompareOp} (h : op ≠ .contains) (v : Value) :
    argument op v = v := by
  cases op with
  | contains => exact absurd rfl h
  | _ => rfl

variable {catalog : Catalog} {o : Options}

theorem Field.read_eq_ok_iff {f : Field} {raw context : String} {v : Value} :
    f.read raw context = .ok v ↔ f.type.read raw = .ok v := by
  rw [Field.read]
  cases f.type.read raw with
  | error source => simp
  | ok w => simp

/-- **A comparison without a converter binds one value**, read as the type of its field
says. -/
theorem Comparison.binds_of_compile {c : Comparison} {bound : Nat} {k : Clause}
    (hc : c.Unconverted catalog o) (h : c.compile catalog o bound = .ok k) :
    ∃ f v, c.Binds catalog o f v ∧ k.args = [v] := by
  obtain ⟨f, hf, hk⟩ := exists_field_compile hc h
  obtain ⟨hop, raw, w, hvalue, hread, rfl⟩ := Field.exists_of_compile hk
  exact ⟨f, _, ⟨hf, hop, raw, w, hvalue, Field.read_eq_ok_iff.mp hread, rfl⟩, rfl⟩

/-- **The arguments of a tree are the values that its comparisons bind**, from left to
right. -/
theorem Expr.binds_of_compileAt {level bound : Nat} {e : Expr} {k : Clause}
    (hconv : ∀ c ∈ e.leaves, c.Unconverted catalog o)
    (h : compileAt catalog o level bound e = .ok k) :
    List.Forall₂ (fun c v => ∃ f, c.Binds catalog o f v) e.leaves k.args := by
  induction e generalizing level bound k with
  | comparison c =>
    rw [leaves_comparison] at hconv ⊢
    obtain ⟨f, v, hbinds, hargs⟩ := Comparison.binds_of_compile
      (hconv c (List.mem_singleton.mpr rfl)) (compile_of_compileAt h)
    rw [hargs]
    exact .cons ⟨f, hbinds⟩ .nil
  | logical l op r ihl ihr =>
    rw [leaves_logical] at hconv ⊢
    obtain ⟨hconvl, hconvr⟩ := List.forall_mem_append.mp hconv
    obtain ⟨-, a, b, hl, hr, rfl⟩ := compileAt_logical_eq_ok_iff.mp h
    exact List.rel_append (ihl hconvl hl) (ihr hconvr hr)

/-- What can be told of an argument from its comparison holds of all arguments exactly if it
holds of all comparisons. -/
theorem Expr.forall_mem_args_iff {level bound : Nat} {e : Expr} {k : Clause}
    (hconv : ∀ c ∈ e.leaves, c.Unconverted catalog o)
    (h : compileAt catalog o level bound e = .ok k) {P : Comparison → Prop} {Q : Value → Prop}
    (hbinds : ∀ c f v, c.Binds catalog o f v → (Q v ↔ P c)) :
    (∀ v ∈ k.args, Q v) ↔ ∀ c ∈ e.leaves, P c := by
  have hall := binds_of_compileAt hconv h
  generalize k.args = vs, e.leaves = cs at hall ⊢
  induction hall with
  | nil => simp
  | cons hc _ ih =>
    obtain ⟨f, hf⟩ := hc
    rw [List.forall_mem_cons, List.forall_mem_cons]
    exact and_congr (hbinds _ f _ hf) ih

end FilterQuery
