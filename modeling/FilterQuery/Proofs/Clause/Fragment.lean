/-
A converter's condition inside a larger one.

The condition that a converter gives goes into the condition of the tree as it is, with
its placeholders numbered anew and without parentheses around it.  It stays together
there unless an `and` stands beside it and it has an `or` outside parentheses.

* **`Comparison.Reading`** — what a comparison says, read alone;
* **`Expr.Brings`** — the atoms that the leaves of a tree bring to its condition, their
  placeholders numbered through from the first leaf to the last;
* **`Expr.graft`** — what a tree says if its comparisons say what they say alone;
* **`Expr.Guarded`** — every comparison beside an `and` is read as one operand of it;
* **`Condition.Fits.join`** — what becomes of all this at one join;
* **`compile_means_graft_iff_guarded`** — the condition of a tree can be read, and it says
  what the tree says exactly if the tree is guarded.

Design notes.  A join is written between parentheses, so nothing outside can take a part
of it, whatever went wrong inside (`Fits.join`).  What did go wrong inside is not undone
outside: a case in which the sides of a join differ is a case in which the joins differ,
if the other side is made not to matter.  The numbers of the placeholders are handed
from leaf to leaf: `Brings` has the number before and after.
-/
import FilterQuery.Proofs.Condition.Renumbering

namespace FilterQuery

namespace Condition

/-! ### One join -/

/-- How the symbols of a part are read, against the formula `χ` that the part should say:
as one operand of an `and` if it is whole, and with the truth values of `χ` if all is
guarded inside. -/
structure Fits (whole guarded : Prop) (ss : List Symbol) (ρ χ : Formula) : Prop where
  size : ρ.size = χ.size
  conjunction : whole → Reads .conjunction ss ρ
  openOr : ¬ whole → OpenOr ss ρ
  eval : guarded → ∀ v, ρ.eval v = χ.eval v
  differs : ¬ guarded → ρ.Differs χ

section

variable {whole whole' guarded guarded' : Prop} {ss ts : List Symbol} {ρ ρ' χ χ' : Formula}

theorem Fits.reads (h : Fits whole guarded ss ρ χ) : Reads .disjunction ss ρ := by
  by_cases hwhole : whole
  · exact .conjunction (h.conjunction hwhole)
  · exact (h.openOr hwhole).reads

/-- If a connective takes both sides as a whole, the join says what the sides say. -/
theorem Fits.chain (hl : Fits whole guarded ss ρ χ) (op : Connective)
    (hr : Fits whole' guarded' ts ρ' χ') (hwhole : op = .and → whole ∧ whole') :
    ∃ σ, Reads .disjunction (ss ++ .connect op :: ts) σ ∧ σ.Agrees (.join ρ op ρ') := by
  cases op with
  | and =>
    obtain ⟨hleft, hright⟩ := hwhole rfl
    obtain ⟨σ, hσ, hagrees⟩ :=
      Reads.chain .and (hl.conjunction hleft) (hr.conjunction hright)
    exact ⟨σ, .conjunction hσ, hagrees⟩
  | or => exact Reads.chain .or hl.reads hr.reads

/-- If an `and` takes only a part of one side, the join does not say what the sides say. -/
theorem Fits.captured (hl : Fits whole guarded ss ρ χ)
    (hr : Fits whole' guarded' ts ρ' χ') (hwhole : ¬ (whole ∧ whole')) :
    ∃ σ, Reads .disjunction (ss ++ .connect .and :: ts) σ ∧ σ.atoms = ρ.atoms ++ ρ'.atoms ∧
      σ.Differs (.join χ .and χ') := by
  have hopen : OpenOr ss ρ ∨ OpenOr ts ρ' :=
    (not_and_or.mp hwhole).imp hl.openOr hr.openOr
  obtain ⟨σ, hσ, hatoms, v, htrue, hfalse⟩ := OpenOr.captured hl.reads hr.reads hopen
  rw [hl.size] at hfalse
  refine ⟨σ, hσ, hatoms, v, ?_⟩
  rw [htrue, Formula.eval_join]
  rcases hfalse with hleft | hright
  · rw [Formula.eval_of_forall hleft]
    simp [Connective.apply]
  · rw [Formula.eval_of_forall fun n _ => hright (χ.size + n) (Nat.le_add_right _ _)]
    simp [Connective.apply]

/-- **One join.**  It has the atoms of both sides.  It is whole, since it stands between
parentheses.  It is guarded if both sides are, and if they are whole in case the connective is
`and`. -/
theorem Fits.join (hl : Fits whole guarded ss ρ χ) (op : Connective)
    (hr : Fits whole' guarded' ts ρ' χ') :
    ∃ σ, σ.atoms = ρ.atoms ++ ρ'.atoms ∧
      Fits True ((op = .and → whole ∧ whole') ∧ guarded ∧ guarded')
        (.opening :: (ss ++ .connect op :: (ts ++ [.closing]))) σ (.join χ op χ') := by
  have hsize : ∀ {σ : Formula}, σ.atoms = ρ.atoms ++ ρ'.atoms → σ.size = (χ.join op χ').size := by
    intro σ hatoms
    rw [Formula.size_join, ← hl.size, ← hr.size, Formula.size, hatoms, List.length_append]
    rfl
  by_cases hwhole : op = .and → whole ∧ whole'
  · obtain ⟨σ, hσ, hagrees⟩ := hl.chain op hr hwhole
    refine ⟨σ, hagrees.atoms, hsize hagrees.atoms, fun _ => .operand hσ.group_join,
      fun h => absurd trivial h, ?_, ?_⟩
    · rintro ⟨-, hguarded, hguarded'⟩ v
      rw [hagrees.eval, Formula.eval_join, Formula.eval_join, hl.eval hguarded,
        hr.eval hguarded', hl.size]
    · intro hguarded
      refine hagrees.differs ?_
      rcases not_and_or.mp fun h => hguarded ⟨hwhole, h⟩ with hleft | hright
      · exact (hl.differs hleft).join_left hl.size op ρ' χ'
      · exact (hr.differs hright).join_right hl.size op
  · obtain ⟨rfl, hnot⟩ := Classical.not_imp.mp hwhole
    obtain ⟨σ, hσ, hatoms, hdiffers⟩ := hl.captured hr hnot
    refine ⟨σ, hatoms, hsize hatoms, fun _ => .operand hσ.group_join,
      fun h => absurd trivial h, ?_, fun _ => hdiffers⟩
    intro hguarded
    exact absurd hguarded.1 hwhole

end

end Condition

/-! ### Leaves -/

/-- What a comparison says, read alone at a level.  The clause of a converter is read;
every other comparison is an atom, if its column is a word and no connective. -/
inductive Comparison.Reading (catalog : Catalog) (o : Options) (c : Comparison)
    (level : Condition.Level) : Condition.Formula → Prop
  | plain {f : Field} : c.resolve catalog o = .ok f → o.converter? f.column = none →
      Condition.IsWord (f.columnText o).toList →
      c.Reading catalog o level (.atom (f.columnText o ++ c.op.sql ++ "?"))
  | fragment {f : Field} {convert : Converter} {clause : Clause} {φ : Condition.Formula} :
      c.resolve catalog o = .ok f → o.converter? f.column = some convert →
      convert f.column c.op c.value = .ok clause →
      Condition.Reads level (Condition.symbols clause.condition.toList) φ →
      c.Reading catalog o level φ

/-- The atoms that a comparison brings to a condition.  Without a converter this is its column,
its operator and a placeholder; with one, these are the atoms of the formula, with a placeholder
for each of their question marks.  The placeholders have the numbers from `next` on, up to but
not including `last`. -/
inductive Comparison.Brings (catalog : Catalog) (o : Options) (φ : Condition.Formula)
    (c : Comparison) : Nat → List String → Nat → Prop
  | plain {f : Field} (next : Nat) : c.resolve catalog o = .ok f →
      o.converter? f.column = none →
      c.Brings catalog o φ next
        [f.columnText o ++ c.op.sql ++ o.settings.placeholder.mark next] (next + 1)
  | fragment {f : Field} {convert : Converter} {next last : Nat} {texts : List String} :
      c.resolve catalog o = .ok f → o.converter? f.column = some convert →
      Condition.MarkedAll o.settings.placeholder next φ.atoms texts last →
      c.Brings catalog o φ next texts last

namespace Comparison

variable {catalog : Catalog} {o : Options} {c : Comparison} {bound : Nat} {k : Clause}

/-- What a comparison with a field is compiled to, without an error. -/
theorem compile_of_resolve {f : Field} (hf : c.resolve catalog o = .ok f)
    (h : c.compile catalog o bound = .ok k) :
    (o.converter? f.column = none → f.compile o bound c = .ok k) ∧
      ∀ convert clause, o.converter? f.column = some convert →
        convert f.column c.op c.value = .ok clause →
        clause.Balanced ∧ k = clause.place o.settings.placeholder bound := by
  rw [Comparison.compile] at h
  split at h
  · cases h
  · simp only [hf] at h
    constructor
    · intro hconv
      simp only [hconv] at h
      exact h
    · intro convert clause hconv hclause
      simp only [hconv, hclause] at h
      rcases clause.embed_outcome f.column with ⟨err, herr⟩ | ⟨hbalanced, hplace⟩
      · rw [herr] at h
        cases h
      · rw [hplace] at h
        cases h
        exact ⟨hbalanced, rfl⟩

/-- What the clause of a converter says. -/
theorem Reading.reads {level : Condition.Level} {φ : Condition.Formula} {f : Field}
    {convert : Converter} {clause : Clause} (h : c.Reading catalog o level φ)
    (hf : c.resolve catalog o = .ok f) (hconv : o.converter? f.column = some convert)
    (hclause : convert f.column c.op c.value = .ok clause) :
    Condition.Reads level (Condition.symbols clause.condition.toList) φ := by
  cases h with
  | plain hf' hconv' _ =>
    cases hf.symm.trans hf'
    cases hconv.symm.trans hconv'
  | fragment hf' hconv' hclause' hreads =>
    cases hf.symm.trans hf'
    cases hconv.symm.trans hconv'
    cases hclause.symm.trans hclause'
    exact hreads

/-- The style of placeholders does not matter for what a comparison says alone. -/
theorem Reading.withPlaceholder {level : Condition.Level} {φ : Condition.Formula}
    (h : c.Reading catalog o level φ) (style : Placeholder) :
    c.Reading catalog (o.withPlaceholder style) level φ := by
  cases h with
  | plain hf hconv hcolumn => exact .plain hf hconv hcolumn
  | fragment hf hconv hclause hreads => exact .fragment hf hconv hclause hreads

/-- **A leaf fits what it says alone**, and has a placeholder for each of its arguments. -/
theorem Reading.fits {φ : Condition.Formula} (hφ : c.Reading catalog o .disjunction φ)
    (h : c.compile catalog o bound = .ok k) :
    ∃ ρ, c.Brings catalog o φ (bound + 1) ρ.atoms (bound + k.args.length + 1) ∧
      Condition.Fits (c.Reading catalog o .conjunction φ) True
        (Condition.symbols k.condition.toList) ρ φ := by
  have hinside : ∀ {P : Prop}, ¬ True → P := fun h => absurd trivial h
  cases hφ with
  | @plain f hf hconv hcolumn =>
    obtain ⟨hcondition, hargs⟩ :=
      Field.condition_of_compile ((compile_of_resolve hf h).1 hconv)
    have hatom := Condition.reads_comparison hcolumn c.op
      (Condition.isWord_mark o.settings.placeholder (bound + 1))
    rw [← String.toList_append, ← String.toList_append, String.ofList_toList, ← hcondition] at hatom
    refine ⟨.atom k.condition, ?_, rfl, fun _ => .operand hatom,
      fun hnot => absurd (.plain hf hconv hcolumn) hnot, fun _ _ => rfl, hinside⟩
    rw [hargs, hcondition]
    exact .plain (bound + 1) hf hconv
  | @fragment f convert clause _ hf hconv hclause hreads =>
    obtain ⟨hbalanced, rfl⟩ := (compile_of_resolve hf h).2 convert clause hconv hclause
    -- Its placeholders are as many as its question marks, and these as many as its arguments.
    have hlast : bound + 1 + Condition.marks (Condition.symbols clause.condition.toList) =
        bound + clause.args.length + 1 := by
      rw [Condition.marks_symbols, hbalanced, Nat.add_right_comm]
    have hbrings : ∀ {ρ : Condition.Formula}, φ.Marked o.settings.placeholder (bound + 1) ρ
        (bound + 1 + Condition.marks (Condition.symbols clause.condition.toList)) →
        c.Brings catalog o φ (bound + 1) ρ.atoms (bound + clause.args.length + 1) :=
      fun hmarked => .fragment hf hconv (hlast ▸ hmarked.atoms)
    rw [Clause.place, String.toList_ofList, Condition.symbols_renumber]
    by_cases hwhole : c.Reading catalog o .conjunction φ
    · obtain ⟨ρ, hρ, hmarked⟩ := (hwhole.reads hf hconv hclause).renumber
        o.settings.placeholder (bound + 1)
      exact ⟨ρ, hbrings hmarked, hmarked.size, fun _ => hρ, fun hnot => absurd hwhole hnot,
        fun _ => hmarked.eval, hinside⟩
    · have hopen := hreads.conjunction_or_openOr.resolve_left fun hconjunction =>
        hwhole (.fragment hf hconv hclause hconjunction)
      obtain ⟨ρ, hρ, hmarked⟩ := hopen.renumber o.settings.placeholder (bound + 1)
      exact ⟨ρ, hbrings hmarked, hmarked.size, fun hnot => absurd hnot hwhole, fun _ => hρ,
        fun _ => hmarked.eval, hinside⟩

end Comparison

/-! ### Trees -/

/-- The atoms that the leaves of a tree bring to its condition, from left to right and with
their placeholders numbered through. -/
inductive Expr.Brings (catalog : Catalog) (o : Options) (φ : Comparison → Condition.Formula) :
    Expr → Nat → List String → Nat → Prop
  | comparison {c : Comparison} {next last : Nat} {texts : List String} :
      c.Brings catalog o (φ c) next texts last →
      Brings catalog o φ (.comparison c) next texts last
  | logical {l r : Expr} (op : Connective) {next mid last : Nat} {texts texts' : List String} :
      Brings catalog o φ l next texts mid → Brings catalog o φ r mid texts' last →
      Brings catalog o φ (.logical l op r) next (texts ++ texts') last

namespace Expr

/-- What a tree says if its comparisons say what the formulas say. -/
def graft (φ : Comparison → Condition.Formula) : Expr → Condition.Formula
  | comparison c => φ c
  | logical l op r => .join (l.graft φ) op (r.graft φ)

/-- A join, or a comparison with a property. -/
def Whole (p : Comparison → Prop) : Expr → Prop
  | comparison c => p c
  | logical _ _ _ => True

/-- Every comparison that is a side of an `and` has the property. -/
def Guarded (p : Comparison → Prop) : Expr → Prop
  | comparison _ => True
  | logical l op r => (op = .and → l.Whole p ∧ r.Whole p) ∧ l.Guarded p ∧ r.Guarded p

variable {catalog : Catalog} {o : Options}

/-- **Every part of a tree fits what it should say**, and has the atoms of its leaves. -/
theorem fits_compileAt {φ : Comparison → Condition.Formula} {e : Expr}
    (hφ : ∀ c ∈ e.leaves, c.Reading catalog o .disjunction (φ c)) {level bound : Nat} {k : Clause}
    (h : compileAt catalog o level bound e = .ok k) :
    ∃ ρ, e.Brings catalog o φ (bound + 1) ρ.atoms (bound + k.args.length + 1) ∧
      Condition.Fits (e.Whole fun c => c.Reading catalog o .conjunction (φ c))
        (e.Guarded fun c => c.Reading catalog o .conjunction (φ c))
        (Condition.symbols k.condition.toList) ρ (e.graft φ) := by
  induction e generalizing level bound k with
  | comparison c =>
    rw [leaves_comparison, List.forall_mem_singleton] at hφ
    obtain ⟨ρ, hbrings, hfits⟩ := hφ.fits (compile_of_compileAt h)
    exact ⟨ρ, .comparison hbrings, hfits⟩
  | logical l op r ihl ihr =>
    obtain ⟨-, a, b, ha, hb, rfl⟩ := compileAt_logical_eq_ok_iff.mp h
    rw [leaves_logical] at hφ
    obtain ⟨hφl, hφr⟩ := List.forall_mem_append.mp hφ
    obtain ⟨ρ, hbrings, hρ⟩ := ihl hφl ha
    obtain ⟨ρ', hbrings', hρ'⟩ := ihr hφr hb
    obtain ⟨σ, hatoms, hσ⟩ := hρ.join op hρ'
    refine ⟨σ, ?_, ?_⟩
    · rw [hatoms, Clause.join, List.length_append, ← Nat.add_assoc]
      exact .logical op hbrings hbrings'
    · rw [Condition.symbols_join]
      exact hσ

end Expr

/-- **What becomes of a converter's condition inside a larger one.**  Let every leaf have a
condition that can be read, a leaf without a converter since its column is a word and no
connective.  Then the condition of the tree can be read, and in one way only, and it has
the atoms of all leaves in their order.  For their question marks they have placeholders of the
configured style, numbered from one on through the whole condition, one for every argument.  It
has the truth value of the tree in every case, each leaf taken to say what it says alone,
exactly if no leaf that is a side of an `and` has an `or` outside parentheses. -/
theorem compile_means_graft_iff_guarded (catalog : Catalog) (o : Options) (e : Expr)
    (φ : Comparison → Condition.Formula)
    (hφ : ∀ c ∈ e.leaves, c.Reading catalog o .disjunction (φ c)) (k : Clause)
    (h : e.compile catalog o = .ok k) :
    ∃ ρ, (∀ ψ, Condition.Says k.condition ψ ↔ ψ = ρ) ∧
      e.Brings catalog o φ 1 ρ.atoms (k.args.length + 1) ∧
      ((∀ v, ρ.eval v = (e.graft φ).eval v) ↔
        e.Guarded fun c => c.Reading catalog o .conjunction (φ c)) := by
  obtain ⟨ρ, hbrings, hρ⟩ := Expr.fits_compileAt hφ h
  rw [Nat.zero_add, Nat.zero_add] at hbrings
  refine ⟨ρ, ?_, hbrings, ?_, ?_⟩
  · intro ψ
    constructor
    · intro hψ
      exact hψ.unique hρ.reads
    · rintro rfl
      exact hρ.reads
  · intro hsame
    by_contra hguarded
    obtain ⟨v, hv⟩ := hρ.differs hguarded
    exact hv (hsame v)
  · intro hguarded
    exact hρ.eval hguarded

open Condition (Symbol)

/-- What comparisons of persons say, those of ages by the converter of `personOptions`. -/
def personReading (c : Comparison) : Condition.Formula :=
  if c.column = "AGE" then .join (.atom "age>?") .or (.atom "age=?")
  else .atom ("name" ++ c.op.sql ++ "?")

theorem reading_name (level : Condition.Level) (op : CompareOp) (value : Option String) :
    Comparison.Reading personCatalog personOptions ⟨"name", op, value⟩ level
      (personReading ⟨"name", op, value⟩) := by
  have hcolumn : (Comparison.mk "name" op value).column = (Comparison.mk "name" .eq none).column :=
    rfl
  have hfield : Comparison.resolve ⟨"name", op, value⟩ personCatalog personOptions =
      .ok ⟨"name", .string⟩ := by
    rw [Comparison.resolve_congr hcolumn]
    rfl
  have hplain : Comparison.Reading personCatalog personOptions ⟨"name", op, value⟩ level
      (.atom (Field.columnText ⟨"name", .string⟩ personOptions ++ op.sql ++ "?")) :=
    .plain hfield rfl ⟨by decide, by decide, by decide⟩
  rw [personReading, if_neg (by decide : "name" ≠ "AGE")]
  exact hplain

theorem reading_age :
    Comparison.Reading personCatalog personOptions ⟨"AGE", .gt, some "7"⟩ .disjunction
      (personReading ⟨"AGE", .gt, some "7"⟩) := by
  have hfield : Comparison.resolve ⟨"AGE", .gt, some "7"⟩ personCatalog personOptions =
      .ok ⟨"age", .int⟩ := rfl
  have hsymbols : Condition.symbols "age>? or age=?".toList =
      [Symbol.text "age>?".toList] ++ Symbol.connect .or :: [Symbol.text "age=?".toList] := by
    decide +kernel
  refine .fragment hfield rfl rfl ?_
  show Condition.Reads .disjunction (Condition.symbols "age>? or age=?".toList) _
  rw [hsymbols]
  exact .or (.conjunction (.operand (.atom _))) (.operand (.atom _))

/-- An `and` beside the converter's condition takes the first half of it, and an age of zero
goes with any name. -/
theorem condition_ne_graft_person :
    let e : Expr := .logical (.comparison ⟨"name", .contains, some "x"⟩) .and
      (.comparison ⟨"AGE", .gt, some "7"⟩)
    (∀ c ∈ e.leaves, c.Reading personCatalog personOptions .disjunction (personReading c)) ∧
    e.compile personCatalog personOptions =
      .ok ⟨"(name like ? and age>? or age=?)", [.text "%x%", .text "7", .int 0]⟩ ∧
    ∃ ρ v, Condition.Says "(name like ? and age>? or age=?)" ρ ∧
      ρ.eval v = true ∧ (e.graft personReading).eval v = false := by
  intro e
  have hreading : ∀ c ∈ e.leaves,
      c.Reading personCatalog personOptions .disjunction (personReading c) := by
    simp only [e, Expr.leaves_logical, Expr.leaves_comparison, List.cons_append,
      List.nil_append, List.forall_mem_cons]
    exact ⟨reading_name _ _ _, reading_age, nofun⟩
  have hsymbols : Condition.symbols "(name like ? and age>? or age=?)".toList =
      Symbol.opening :: ([Symbol.text "name like ?".toList] ++
        Symbol.connect .and :: [Symbol.text "age>?".toList] ++
        Symbol.connect .or :: [Symbol.text "age=?".toList] ++ [Symbol.closing]) := by
    decide +kernel
  refine ⟨hreading, rfl,
    .join (.join (.atom "name like ?") .and (.atom "age>?")) .or (.atom "age=?"),
    fun n => n == 2, ?_, by decide, by decide⟩
  rw [Condition.Says, hsymbols]
  exact .conjunction (.operand (.group (.or
    (.conjunction (.and (.operand (.atom _)) (.atom _))) (.operand (.atom _)))))

/-- Beside an `or`, the converter's condition stays together, and what stands around this
join does not matter. -/
theorem person_condition_means_graft :
    let o := personOptions.withPlaceholder .numbered
    let e : Expr := .logical (.logical (.comparison ⟨"name", .contains, some "x"⟩) .or
        (.comparison ⟨"AGE", .gt, some "7"⟩)) .and (.comparison ⟨"name", .ne, some "y"⟩)
    (∀ c ∈ e.leaves, c.Reading personCatalog o .disjunction (personReading c)) ∧
    (e.Guarded fun c => c.Reading personCatalog o .conjunction (personReading c)) ∧
    e.compile personCatalog o =
      .ok ⟨"((name like $1 or age>$2 or age=$3) and name!=$4)",
        [.text "%x%", .text "7", .int 0, .text "y"]⟩ ∧
    e.Brings personCatalog o personReading 1
      ["name like $1", "age>$2", "age=$3", "name!=$4"] 5 ∧
    ∃ ρ, (∀ ψ, Condition.Says "((name like $1 or age>$2 or age=$3) and name!=$4)" ψ ↔ ψ = ρ) ∧
      ρ.atoms = ["name like $1", "age>$2", "age=$3", "name!=$4"] ∧
      ∀ v, ρ.eval v = ((v 0 || (v 1 || v 2)) && v 3) := by
  intro o e
  have hname : ∀ level op value, Comparison.Reading personCatalog o ⟨"name", op, value⟩ level
      (personReading ⟨"name", op, value⟩) :=
    fun level op value => (reading_name level op value).withPlaceholder .numbered
  have hreading : ∀ c ∈ e.leaves, c.Reading personCatalog o .disjunction (personReading c) := by
    simp only [e, Expr.leaves_logical, Expr.leaves_comparison, List.cons_append,
      List.nil_append, List.forall_mem_cons]
    exact ⟨hname _ _ _, reading_age.withPlaceholder .numbered, hname _ _ _, nofun⟩
  have hguarded : e.Guarded fun c => c.Reading personCatalog o .conjunction (personReading c) :=
    ⟨fun _ => ⟨trivial, hname _ _ _⟩, ⟨nofun, trivial, trivial⟩, trivial⟩
  have hcompile : e.compile personCatalog (personOptions.withPlaceholder .numbered) =
      .ok ⟨"((name like $1 or age>$2 or age=$3) and name!=$4)",
        [.text "%x%", .text "7", .int 0, .text "y"]⟩ := rfl
  have hsymbols : Condition.symbols "((name like $1 or age>$2 or age=$3) and name!=$4)".toList =
      Symbol.opening :: (Symbol.opening :: ([Symbol.text "name like $1".toList] ++
        Symbol.connect .or :: [Symbol.text "age>$2".toList] ++
        Symbol.connect .or :: [Symbol.text "age=$3".toList] ++ [Symbol.closing]) ++
        Symbol.connect .and :: [Symbol.text "name!=$4".toList] ++ [Symbol.closing]) := by
    decide +kernel
  have hsays : Condition.Says "((name like $1 or age>$2 or age=$3) and name!=$4)"
      (.join (.join (.join (.atom "name like $1") .or (.atom "age>$2")) .or (.atom "age=$3")) .and
        (.atom "name!=$4")) := by
    rw [Condition.Says, hsymbols]
    exact .conjunction (.operand (.group (.conjunction (.and (.operand (.group (.or (.or
      (.conjunction (.operand (.atom _))) (.operand (.atom _))) (.operand (.atom _)))))
      (.atom _)))))
  obtain ⟨ρ, hreads, hbrings, hmeans⟩ :=
    compile_means_graft_iff_guarded personCatalog o e personReading hreading _ hcompile
  have hatoms : ρ.atoms = ["name like $1", "age>$2", "age=$3", "name!=$4"] := by
    rw [← (hreads _).mp hsays]
    rfl
  rw [hatoms] at hbrings
  refine ⟨hreading, hguarded, hcompile, hbrings, ρ, hreads, hatoms, ?_⟩
  intro v
  rw [hmeans.mpr hguarded]
  rfl

end FilterQuery
