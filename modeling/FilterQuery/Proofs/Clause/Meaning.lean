/-
A condition says what its tree says.

Queries join their parts from left to right, and conditions are read with `and` before
`or`.  Both agree, because every join is written between parentheses.

* **`Expr.holds`** — the truth value of a tree, given that of its leaves;
* **`Condition.symbols_join`** — the symbols of two conditions that are joined;
* **`Comparison.reads_compile`** — a comparison without a converter is compiled to an atom;
* **`Expr.reads_compileAt`** — every part of a tree is compiled to an operand, and this
  operand says what the part says;
* **`compile_condition_means_tree`** — the condition of a tree is read in one way, with an
  atom for every leaf, and has the truth value of the tree.
-/
import FilterQuery.Proofs.Clause.Noninterference
import FilterQuery.Proofs.Clause.Numbering
import FilterQuery.Proofs.Condition.Grammar
import Mathlib.Data.List.Forall2

namespace FilterQuery

/-- The truth value of a tree whose `n`-th leaf from the left has the truth value `v n`. -/
def Expr.holds : Expr → (Nat → Bool) → Bool
  | comparison _, v => v 0
  | logical l op r, v => op.apply (l.holds v) (r.holds fun n => v (l.leaves.length + n))

/-- The column that a comparison is compiled to is a word and no connective, unless a
converter has a say. -/
def Comparison.PlainColumn (c : Comparison) (catalog : Catalog) (o : Options) : Prop :=
  ∀ f, c.resolve catalog o = .ok f → o.converter? f.column = none →
    Condition.IsWord (f.columnText o).toList

/-- The text is the comparison of a leaf with the placeholder of a number. -/
def Comparison.IsAtom (catalog : Catalog) (o : Options) (leaf : Comparison × Nat) (text : String) :
    Prop :=
  ∃ f, leaf.1.resolve catalog o = .ok f ∧
    text = f.columnText o ++ leaf.1.op.sql ++ o.settings.placeholder.mark leaf.2

namespace Condition

theorem isWord_mark (style : Placeholder) (n : Nat) : IsWord (style.mark n).toList := by
  cases style with
  | sequential =>
    rw [Placeholder.toList_mark_sequential]
    exact ⟨by decide, by decide, by decide⟩
  | numbered =>
    have hdigits : (toString n).toList = Nat.toDigits 10 n := String.toList_ofList
    rw [Placeholder.toList_mark_numbered, hdigits]
    refine ⟨List.cons_ne_nil _ _, ?_, notMem_keywords List.mem_cons_self (by decide)⟩
    refine List.all_eq_true.mpr (List.forall_mem_cons.mpr ⟨by decide, fun d hd => ?_⟩)
    exact isPlain_of_isDigit (Nat.isDigit_of_mem_toDigits (by decide) (by decide) hd)

/-- The symbols of two conditions that are joined. -/
theorem symbols_join (l : Clause) (op : Connective) (r : Clause) :
    symbols (l.join op r).condition.toList =
      .opening :: (symbols l.condition.toList ++
        .connect op :: (symbols r.condition.toList ++ [.closing])) := by
  have hspace : ∀ cs, Stops isPlain (' ' :: cs) := by
    rintro cs c ⟨⟩
    decide
  have hword : op.word.toList ≠ [] ∧ op.word.toList.all isPlain = true := by
    cases op <;> decide
  have hclosing : symbols (r.condition.toList ++ [')']) =
      symbols r.condition.toList ++ [.closing] := by
    have hstops : Stops isPlain [')'] := by
      rintro c ⟨⟩
      decide
    have hend : symbols [')'] = [.closing] := by
      rw [symbols_closing, symbols]
    rw [symbols_append _ hstops, hend]
    intro w hw
    rw [hend] at hw
    cases hw
  have hconnect : symbols (' ' :: (op.word.toList ++ ' ' :: (r.condition.toList ++ [')']))) =
      .connect op :: (symbols r.condition.toList ++ [.closing]) := by
    rw [symbols_white (by decide), symbols_word hword.1 hword.2 (hspace _), ofWord_connective,
      symbols_white (by decide), hclosing]
    rfl
  rw [Clause.toList_condition_join, symbols_opening, symbols_append _ (hspace _), hconnect]
  intro w hw
  rw [hconnect] at hw
  cases hw

/-- What stands between the parentheses of a join is an operand. -/
theorem Reads.group_join {ss ts : List Symbol} {op : Connective} {φ : Formula}
    (h : Reads .disjunction (ss ++ .connect op :: ts) φ) :
    Reads .operand (.opening :: (ss ++ .connect op :: (ts ++ [.closing]))) φ := by
  have hgroup := Reads.group h
  rw [List.append_assoc, List.cons_append] at hgroup
  exact hgroup

/-- Two operands between parentheses are an operand again. -/
theorem Reads.join {ss ts : List Symbol} {φ ψ : Formula} (hφ : Reads .operand ss φ)
    (op : Connective) (hψ : Reads .operand ts ψ) :
    Reads .operand (.opening :: (ss ++ .connect op :: (ts ++ [.closing]))) (.join φ op ψ) := by
  refine Reads.group_join ?_
  cases op with
  | and => exact .conjunction (.and (.operand hφ) hψ)
  | or => exact .or (.conjunction (.operand hφ)) (.operand hψ)

end Condition

variable {catalog : Catalog} {o : Options}

theorem Comparison.reads_compile {c : Comparison} {bound : Nat} {k : Clause}
    (hconv : c.Unconverted catalog o) (hcolumn : c.PlainColumn catalog o)
    (h : c.compile catalog o bound = .ok k) :
    Condition.Reads .operand (Condition.symbols k.condition.toList) (.atom k.condition) ∧
      Comparison.IsAtom catalog o (c, bound + 1) k.condition ∧ k.args.length = 1 := by
  obtain ⟨f, hf, hcondition, hargs⟩ := Comparison.condition_of_compile hconv h
  have hatom := Condition.reads_comparison (hcolumn f hf (hconv f hf)) c.op
    (Condition.isWord_mark o.settings.placeholder (bound + 1))
  rw [← String.toList_append, ← String.toList_append, String.ofList_toList, ← hcondition] at hatom
  exact ⟨hatom, ⟨f, hf, hcondition⟩, hargs⟩

namespace Expr

/-- Every part of a tree is compiled to an operand, which says what the part says. -/
theorem reads_compileAt {e : Expr} (hconv : ∀ c ∈ e.leaves, c.Unconverted catalog o)
    (hcolumn : ∀ c ∈ e.leaves, c.PlainColumn catalog o) {level bound : Nat} {k : Clause}
    (h : compileAt catalog o level bound e = .ok k) :
    k.args.length = e.leaves.length ∧
      ∃ φ, Condition.Reads .operand (Condition.symbols k.condition.toList) φ ∧
        List.Forall₂ (Comparison.IsAtom catalog o) (e.leaves.zipIdx (bound + 1)) φ.atoms ∧
        ∀ v, φ.eval v = e.holds v := by
  induction e generalizing level bound k with
  | comparison c =>
    rw [leaves_comparison, List.forall_mem_singleton] at hconv hcolumn
    obtain ⟨hreads, hatom, hargs⟩ := Comparison.reads_compile hconv hcolumn (compile_of_compileAt h)
    rw [leaves_comparison]
    exact ⟨hargs, .atom k.condition, hreads, .cons hatom .nil, fun v => rfl⟩
  | logical l op r ihl ihr =>
    obtain ⟨-, a, b, ha, hb, rfl⟩ := compileAt_logical_eq_ok_iff.mp h
    rw [leaves_logical] at hconv hcolumn
    obtain ⟨hconvl, hconvr⟩ := List.forall_mem_append.mp hconv
    obtain ⟨hcolumnl, hcolumnr⟩ := List.forall_mem_append.mp hcolumn
    obtain ⟨hargsl, φ, hφ, hatomsl, hevall⟩ := ihl hconvl hcolumnl ha
    obtain ⟨hargsr, ψ, hψ, hatomsr, hevalr⟩ := ihr hconvr hcolumnr hb
    have hsize : φ.size = l.leaves.length := by
      have hlength := hatomsl.length_eq
      rw [List.length_zipIdx] at hlength
      exact hlength.symm
    rw [leaves_logical]
    refine ⟨?_, .join φ op ψ, ?_, ?_, ?_⟩
    · rw [Clause.join, List.length_append, List.length_append, hargsl, hargsr]
    · rw [Condition.symbols_join]
      exact hφ.join op hψ
    · -- The atoms on the right are numbered behind those on the left.
      rw [List.zipIdx_append, Nat.add_right_comm, ← hargsl]
      exact List.rel_append hatomsl hatomsr
    · intro v
      rw [Condition.Formula.eval, holds, hevall, hevalr, hsize]

end Expr

/-- **A condition says what its tree says.**  If no converter has a say and every column
is a word and no connective, the condition can be read to its end, and in one way only.
It has one atom for every leaf, in the order of the leaves, which compares the column of
the leaf with a placeholder.  Whatever the truth values of the atoms are, it has the
truth value that the tree has. -/
theorem compile_condition_means_tree (catalog : Catalog) (o : Options) (e : Expr)
    (hconv : ∀ c ∈ e.leaves, c.Unconverted catalog o)
    (hcolumn : ∀ c ∈ e.leaves, c.PlainColumn catalog o) (k : Clause)
    (h : e.compile catalog o = .ok k) :
    ∃ φ, (∀ ψ, Condition.Says k.condition ψ ↔ ψ = φ) ∧
      φ.atoms.length = e.leaves.length ∧
      List.Forall₂ (Comparison.IsAtom catalog o) (e.leaves.zipIdx 1) φ.atoms ∧
      ∀ v, φ.eval v = e.holds v := by
  obtain ⟨-, φ, hreads, hatoms, heval⟩ := Expr.reads_compileAt hconv hcolumn h
  have hsays : Condition.Says k.condition φ := .conjunction (.operand hreads)
  refine ⟨φ, ?_, ?_, hatoms, heval⟩
  · intro ψ
    constructor
    · intro hψ
      exact hψ.unique hsays
    · rintro rfl
      exact hsays
  · have hlength := hatoms.length_eq
    rw [List.length_zipIdx] at hlength
    exact hlength.symm

/-- Numbered placeholders, a column with another name, a day, and an `or` inside an `and`
that stands on its left side. -/
theorem person_condition_means_tree :
    let e : Expr := .logical
      (.logical (.comparison ⟨"name", .contains, some "x"⟩) .or
        (.comparison ⟨"born", .ge, some "2023-01-02"⟩)) .and
      (.comparison ⟨"Age", .ne, some "7"⟩)
    (∀ c ∈ e.leaves, c.Unconverted personCatalog numberedOptions) ∧
    (∀ c ∈ e.leaves, c.PlainColumn personCatalog numberedOptions) ∧
    ∃ φ, (∀ ψ, Condition.Says "((p.name like $1 or born::date>=$2) and age!=$3)" ψ ↔ ψ = φ) ∧
      φ.atoms.length = 3 ∧ ∀ v, φ.eval v = ((v 0 || v 1) && v 2) := by
  intro e
  have hconv : ∀ c ∈ e.leaves, c.Unconverted personCatalog numberedOptions := fun _ _ _ _ => rfl
  have hcolumn : ∀ c ∈ e.leaves, c.PlainColumn personCatalog numberedOptions := by
    simp only [e, Expr.leaves_logical, Expr.leaves_comparison, List.cons_append,
      List.nil_append, List.forall_mem_cons]
    refine ⟨?_, ?_, ?_, nofun⟩
    · rintro f ⟨⟩ -
      exact ⟨by decide, by decide, by decide⟩
    · rintro f ⟨⟩ -
      exact ⟨by decide, by decide, by decide⟩
    · rintro f ⟨⟩ -
      exact ⟨by decide, by decide, by decide⟩
  have hcompile : e.compile personCatalog numberedOptions =
      .ok ⟨"((p.name like $1 or born::date>=$2) and age!=$3)",
        [.text "%x%", .date ⟨2023, 1, 2, by decide⟩, .int 7]⟩ := rfl
  obtain ⟨φ, hsays, hlength, -, heval⟩ :=
    compile_condition_means_tree personCatalog numberedOptions e hconv hcolumn _ hcompile
  refine ⟨hconv, hcolumn, φ, hsays, ?_, ?_⟩
  · rw [hlength]
    simp [e, Expr.leaves_logical, Expr.leaves_comparison]
  · intro v
    rw [heval]
    simp [e, Expr.holds, Expr.leaves_logical, Expr.leaves_comparison, Connective.apply]

end FilterQuery
