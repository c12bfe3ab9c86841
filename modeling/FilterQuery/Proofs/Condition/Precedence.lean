/-
Conditions joined without parentheses.

* **`Formula.Agrees`**, **`Formula.Differs`** — two formulas have the same truth value
  whatever their atoms say, or there is a case in which they have not;
* **`Reads.chain`** — two conjunctions with an `and` between them are a conjunction that
  says what both say, and so for disjunctions and `or`;
* **`OpenOr`** — a condition with an `or` outside all parentheses;
* **`OpenOr.captured`** — an `and` beside such a condition takes only a part of it.

Design notes.  Joining on the right is not a rule of the grammar, which grows on the
left.  The formulas that come out have another shape than the join of the two, but the
same atoms in the same order, and so they are compared by truth values.  All formulas
are true if all their atoms are, and false if none is (`eval_const`); this is enough to
tell apart two ways of reading a condition.
-/
import FilterQuery.Proofs.Condition.Grammar

namespace FilterQuery

/-- The truth value that a join with it leaves as it is. -/
def Connective.unit : Connective → Bool
  | and => true
  | or => false

theorem Connective.apply_unit (op : Connective) (a : Bool) : op.apply a op.unit = a := by
  cases op <;> cases a <;> rfl

theorem Connective.unit_apply (op : Connective) (a : Bool) : op.apply op.unit a = a := by
  cases op <;> cases a <;> rfl

theorem Connective.apply_self (op : Connective) (a : Bool) : op.apply a a = a := by
  cases op <;> cases a <;> rfl

theorem Connective.apply_assoc (op : Connective) (a b c : Bool) :
    op.apply (op.apply a b) c = op.apply a (op.apply b c) := by
  cases op with
  | and => exact Bool.and_assoc a b c
  | or => exact Bool.or_assoc a b c

namespace Condition

/-! ### Truth values -/

namespace Formula

theorem eval_join (l : Formula) (op : Connective) (r : Formula) (v : Nat → Bool) :
    (join l op r).eval v = op.apply (l.eval v) (r.eval fun n => v (l.size + n)) :=
  rfl

/-- Only the truth values of its own atoms matter for a formula. -/
theorem eval_congr {φ : Formula} {v w : Nat → Bool} (h : ∀ n, n < φ.size → v n = w n) :
    φ.eval v = φ.eval w := by
  induction φ generalizing v w with
  | atom text => exact h 0 Nat.one_pos
  | join l op r ihl ihr =>
    rw [size_join] at h
    rw [eval_join, eval_join, ihl fun n hn => h n (by omega),
      ihr fun n hn => h (l.size + n) (by omega)]

theorem eval_const (φ : Formula) (b : Bool) : (φ.eval fun _ => b) = b := by
  induction φ with
  | atom text => rfl
  | join l op r ihl ihr => rw [eval_join, ihl, ihr, Connective.apply_self]

theorem eval_of_forall {φ : Formula} {v : Nat → Bool} {b : Bool} (h : ∀ n, n < φ.size → v n = b) :
    φ.eval v = b := by
  rw [eval_congr h, eval_const]

/-- Two formulas with the same atoms and the same truth value in every case. -/
structure Agrees (φ ψ : Formula) : Prop where
  atoms : φ.atoms = ψ.atoms
  eval : ∀ v, φ.eval v = ψ.eval v

/-- Two formulas that have not the same truth value in every case. -/
def Differs (φ ψ : Formula) : Prop :=
  ∃ v, φ.eval v ≠ ψ.eval v

variable {φ φ' ψ ψ' χ : Formula}

theorem Agrees.refl (φ : Formula) : φ.Agrees φ :=
  ⟨rfl, fun _ => rfl⟩

theorem Agrees.trans (h : φ.Agrees ψ) (h' : ψ.Agrees χ) : φ.Agrees χ :=
  ⟨h.atoms.trans h'.atoms, fun v => (h.eval v).trans (h'.eval v)⟩

theorem Agrees.symm (h : φ.Agrees ψ) : ψ.Agrees φ :=
  ⟨h.atoms.symm, fun v => (h.eval v).symm⟩

theorem Agrees.size (h : φ.Agrees ψ) : φ.size = ψ.size :=
  congrArg List.length h.atoms

theorem Agrees.join (hφ : φ.Agrees φ') (op : Connective) (hψ : ψ.Agrees ψ') :
    (join φ op ψ).Agrees (join φ' op ψ') where
  atoms := by rw [Formula.atoms, Formula.atoms, hφ.atoms, hψ.atoms]
  eval v := by rw [eval_join, eval_join, hφ.eval, hψ.eval, hφ.size]

theorem agrees_assoc (φ : Formula) (op : Connective) (ψ χ : Formula) :
    (join (join φ op ψ) op χ).Agrees (join φ op (join ψ op χ)) where
  atoms := by simp only [Formula.atoms, List.append_assoc]
  eval v := by simp only [eval_join, size_join, Connective.apply_assoc, Nat.add_assoc]

theorem Agrees.differs (h : φ.Agrees ψ) (h' : ψ.Differs χ) : φ.Differs χ := by
  obtain ⟨v, hv⟩ := h'
  exact ⟨v, by rw [h.eval]; exact hv⟩

/-- If the left sides differ, so do the joins: the right sides can be made not to matter. -/
theorem Differs.join_left (h : φ.Differs φ') (hsize : φ.size = φ'.size) (op : Connective)
    (ψ ψ' : Formula) : (join φ op ψ).Differs (join φ' op ψ') := by
  obtain ⟨v, hv⟩ := h
  let w : Nat → Bool := fun n => if n < φ.size then v n else op.unit
  have hleft : ∀ n, n < φ.size → w n = v n := fun n hn => if_pos hn
  have hright : ∀ n, w (φ.size + n) = op.unit := fun n => if_neg (by omega)
  have hφ : φ.eval w = φ.eval v := eval_congr hleft
  have hφ' : φ'.eval w = φ'.eval v := eval_congr (hsize ▸ hleft)
  refine ⟨w, ?_⟩
  rw [eval_join, eval_join, ← hsize, hφ, hφ']
  simp only [hright, eval_const, Connective.apply_unit]
  exact hv

theorem Differs.join_right (h : ψ.Differs ψ') (hsize : φ.size = φ'.size) (op : Connective) :
    (join φ op ψ).Differs (join φ' op ψ') := by
  obtain ⟨v, hv⟩ := h
  let w : Nat → Bool := fun n => if n < φ.size then op.unit else v (n - φ.size)
  have hleft : ∀ n, n < φ.size → w n = op.unit := fun n hn => if_pos hn
  have hright : ∀ n, w (φ.size + n) = v n := by
    intro n
    show (if φ.size + n < φ.size then op.unit else v (φ.size + n - φ.size)) = v n
    rw [if_neg (by omega), Nat.add_sub_cancel_left]
  have hφ : φ.eval w = op.unit := eval_of_forall hleft
  have hφ' : φ'.eval w = op.unit := eval_of_forall (hsize ▸ hleft)
  refine ⟨w, ?_⟩
  rw [eval_join, eval_join, ← hsize, hφ, hφ']
  simp only [hright, Connective.unit_apply]
  exact hv

end Formula

open Formula

/-! ### Chains -/

/-- The parts that a connective makes. -/
def Level.of : Connective → Level
  | .and => .conjunction
  | .or => .disjunction

variable {ss ts : List Symbol} {φ ψ : Formula}

/-- Two parts that a connective makes, with this connective between them, are such a part
again, and it says what both say. -/
theorem Reads.chain (op : Connective) (hφ : Reads (.of op) ss φ) (hψ : Reads (.of op) ts ψ) :
    ∃ χ, Reads (.of op) (ss ++ .connect op :: ts) χ ∧ χ.Agrees (.join φ op ψ) := by
  generalize hlevel : Level.of op = level at hψ
  induction hψ with
  | atom => cases op <;> cases hlevel
  | group => cases op <;> cases hlevel
  | operand hoperand =>
    cases op with
    | or => cases hlevel
    | and => exact ⟨_, .and hφ hoperand, .refl _⟩
  | @and ts₁ ts₂ ψ₁ ψ₂ _ hright ih =>
    cases op with
    | or => cases hlevel
    | and =>
      obtain ⟨χ, hχ, hagrees⟩ := ih hlevel
      have hread := Reads.and hχ hright
      rw [List.append_assoc, List.cons_append] at hread
      exact ⟨_, hread, (hagrees.join .and (.refl ψ₂)).trans (agrees_assoc φ .and ψ₁ ψ₂)⟩
  | conjunction hconjunction =>
    cases op with
    | and => cases hlevel
    | or => exact ⟨_, .or hφ hconjunction, .refl _⟩
  | @or ts₁ ts₂ ψ₁ ψ₂ _ hright ih =>
    cases op with
    | and => cases hlevel
    | or =>
      obtain ⟨χ, hχ, hagrees⟩ := ih hlevel
      have hread := Reads.or hχ hright
      rw [List.append_assoc, List.cons_append] at hread
      exact ⟨_, hread, (hagrees.join .or (.refl ψ₂)).trans (agrees_assoc φ .or ψ₁ ψ₂)⟩

/-! ### An `or` outside parentheses -/

/-- A condition with an `or` outside all parentheses. -/
inductive OpenOr : List Symbol → Formula → Prop
  | mk {ss ts : List Symbol} {φ ψ : Formula} : Reads .disjunction ss φ →
      Reads .conjunction ts ψ → OpenOr (ss ++ .connect .or :: ts) (.join φ .or ψ)

theorem OpenOr.reads (h : OpenOr ss φ) : Reads .disjunction ss φ := by
  obtain ⟨hleft, hright⟩ := h
  exact .or hleft hright

/-- A condition is a conjunction, or it has an `or` outside all parentheses. -/
theorem Reads.conjunction_or_openOr (h : Reads .disjunction ss φ) :
    Reads .conjunction ss φ ∨ OpenOr ss φ := by
  cases h with
  | conjunction h => exact .inl h
  | or hleft hright => exact .inr (.mk hleft hright)

/-- The first part of a disjunction instead of the last. -/
theorem OpenOr.exists_first (h : OpenOr ss φ) :
    ∃ ss₁ ss₂ φ₁ φ₂, ss = ss₁ ++ .connect .or :: ss₂ ∧ Reads .conjunction ss₁ φ₁ ∧
      Reads .disjunction ss₂ φ₂ ∧ (Formula.join φ₁ .or φ₂).Agrees φ := by
  obtain ⟨hleft, hright⟩ := h
  rename_i ss ts φ ψ
  generalize hlevel : Level.disjunction = level at hleft
  induction hleft generalizing ts ψ with
  | atom => cases hlevel
  | group => cases hlevel
  | operand => cases hlevel
  | and => cases hlevel
  | conjunction hfirst => exact ⟨_, _, _, _, rfl, hfirst, .conjunction hright, .refl _⟩
  | @or ss ts' φ ψ' hss hts' ih =>
    obtain ⟨ss₁, ss₂, φ₁, φ₂, hsplit, hfirst, hrest, hagrees⟩ := ih hts' hlevel
    refine ⟨ss₁, ss₂ ++ .connect .or :: ts, φ₁, .join φ₂ .or ψ, ?_, hfirst, .or hrest hright, ?_⟩
    · rw [hsplit, List.append_assoc, List.cons_append]
    · exact (agrees_assoc φ₁ .or φ₂ ψ).symm.trans (hagrees.join .or (.refl ψ))

/-- A conjunction goes on with the first part of a disjunction. -/
theorem Reads.and_openOr (hφ : Reads .conjunction ss φ) (hψ : OpenOr ts ψ) :
    ∃ χ ψ₁ ψ₂, Reads .disjunction (ss ++ .connect .and :: ts) χ ∧
      (Formula.join ψ₁ .or ψ₂).Agrees ψ ∧ χ.Agrees (.join (.join φ .and ψ₁) .or ψ₂) := by
  obtain ⟨ts₁, ts₂, ψ₁, ψ₂, rfl, hfirst, hrest, hagrees⟩ := hψ.exists_first
  obtain ⟨χ₁, hχ₁, hagrees₁⟩ := Reads.chain .and hφ hfirst
  obtain ⟨χ, hχ, hagrees'⟩ := Reads.chain .or (.conjunction hχ₁) hrest
  rw [List.append_assoc, List.cons_append] at hχ
  exact ⟨χ, ψ₁, ψ₂, hχ, hagrees, hagrees'.trans (hagrees₁.join .or (.refl ψ₂))⟩

/-- A conjunction goes on with any condition in some way. -/
theorem Reads.exists_and (hφ : Reads .conjunction ss φ) (hψ : Reads .disjunction ts ψ) :
    ∃ χ, Reads .disjunction (ss ++ .connect .and :: ts) χ ∧ χ.atoms = φ.atoms ++ ψ.atoms := by
  rcases hψ.conjunction_or_openOr with hconjunction | hopen
  · obtain ⟨χ, hχ, hagrees⟩ := Reads.chain .and hφ hconjunction
    exact ⟨χ, .conjunction hχ, hagrees.atoms⟩
  · obtain ⟨χ, ψ₁, ψ₂, hχ, hψ', hagrees⟩ := hφ.and_openOr hopen
    refine ⟨χ, hχ, ?_⟩
    rw [hagrees.atoms, ← hψ'.atoms]
    exact List.append_assoc _ _ _

/-- An `and` to the right of a disjunction takes its last part only.  All is true if the
parts before are, whatever stands to the right. -/
theorem OpenOr.captured_left (hφ : OpenOr ss φ) (hψ : Reads .disjunction ts ψ) :
    ∃ χ, Reads .disjunction (ss ++ .connect .and :: ts) χ ∧ χ.atoms = φ.atoms ++ ψ.atoms ∧
      ∃ v, χ.eval v = true ∧ ∀ n, φ.size ≤ n → v n = false := by
  obtain ⟨hleft, hright⟩ := hφ
  rename_i ss₁ ss₂ φ₁ φ₂
  obtain ⟨χ₂, hχ₂, hatoms₂⟩ := hright.exists_and hψ
  obtain ⟨χ, hχ, hagrees⟩ := Reads.chain .or hleft hχ₂
  refine ⟨χ, ?_, ?_, fun n => n < φ₁.size, ?_, ?_⟩
  · rw [List.append_assoc, List.cons_append]
    exact hχ
  · rw [hagrees.atoms, Formula.atoms, Formula.atoms, hatoms₂, List.append_assoc]
  · have htrue : (φ₁.eval fun n => n < φ₁.size) = true :=
      eval_of_forall fun n hn => decide_eq_true hn
    rw [hagrees.eval, eval_join, htrue]
    rfl
  · intro n hn
    rw [size_join] at hn
    exact decide_eq_false (by omega)

/-- An `and` to the left of a disjunction takes its first part only. -/
theorem OpenOr.captured_right (hφ : Reads .conjunction ss φ) (hψ : OpenOr ts ψ) :
    ∃ χ, Reads .disjunction (ss ++ .connect .and :: ts) χ ∧ χ.atoms = φ.atoms ++ ψ.atoms ∧
      ∃ v, χ.eval v = true ∧ ∀ n, n < φ.size → v n = false := by
  obtain ⟨χ, ψ₁, ψ₂, hχ, hψ', hagrees⟩ := hφ.and_openOr hψ
  refine ⟨χ, hχ, ?_, fun n => φ.size + ψ₁.size ≤ n, ?_, ?_⟩
  · rw [hagrees.atoms, ← hψ'.atoms]
    exact List.append_assoc _ _ _
  · have htrue : (ψ₂.eval fun n => decide (φ.size + ψ₁.size ≤ φ.size + ψ₁.size + n)) = true :=
      eval_of_forall fun n _ => decide_eq_true (by omega)
    rw [hagrees.eval, eval_join, size_join, htrue]
    exact Bool.or_true _
  · intro n hn
    exact decide_eq_false (by omega)

/-- **An `and` takes only a part of a condition with an `or` outside parentheses.**  There is
a case in which all is true, although no atom on one side of the `and` is. -/
theorem OpenOr.captured (hφ : Reads .disjunction ss φ) (hψ : Reads .disjunction ts ψ)
    (hopen : OpenOr ss φ ∨ OpenOr ts ψ) :
    ∃ χ, Reads .disjunction (ss ++ .connect .and :: ts) χ ∧ χ.atoms = φ.atoms ++ ψ.atoms ∧
      ∃ v, χ.eval v = true ∧
        ((∀ n, n < φ.size → v n = false) ∨ ∀ n, φ.size ≤ n → v n = false) := by
  have hcases : OpenOr ss φ ∨ Reads .conjunction ss φ ∧ OpenOr ts ψ := by
    rcases hφ.conjunction_or_openOr with hconjunction | hleft
    · exact hopen.imp id fun hright => ⟨hconjunction, hright⟩
    · exact .inl hleft
  rcases hcases with hleft | ⟨hconjunction, hright⟩
  · obtain ⟨χ, hχ, hatoms, v, htrue, hfalse⟩ := hleft.captured_left hψ
    exact ⟨χ, hχ, hatoms, v, htrue, .inr hfalse⟩
  · obtain ⟨χ, hχ, hatoms, v, htrue, hfalse⟩ := hright.captured_right hconjunction
    exact ⟨χ, hχ, hatoms, v, htrue, .inl hfalse⟩

end Condition

end FilterQuery
