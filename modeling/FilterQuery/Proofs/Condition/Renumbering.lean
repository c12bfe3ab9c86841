/-
Conditions whose placeholders are numbered anew.

The clause of a converter has question marks, and in the condition of a tree they become
placeholders of a style, numbered from some number on.

* **`Marked`** — a text with a numbered placeholder of a style for each of its question marks;
* **`Formula.Marked`** — the same of the atoms of a formula, one after the other;
* **`symbols_renumber`** — the symbols of the condition stay the same but for their
  placeholders, since a placeholder is a word and no connective;
* **`marks_symbols`** — no question mark is lost when the condition is cut into symbols;
* **`Reads.renumber`** — so the condition is read as before, and its atoms are marked.

Design notes.  The numbers are handed from symbol to symbol and from atom to atom, so `Marked` has
the number before and the number after.  It says what a marked text is without `Clause.renumber`;
that this function marks a text is `marked_renumber`.
-/
import FilterQuery.Proofs.Clause.Meaning
import FilterQuery.Proofs.Condition.Precedence

namespace FilterQuery

namespace Condition

/-! ### Marked texts -/

/-- The second text is the first one with a placeholder for each of its question marks.  The
placeholders have the numbers from `next` on, up to but not including `last`. -/
inductive Marked (style : Placeholder) : Nat → List Char → List Char → Nat → Prop
  | nil (next : Nat) : Marked style next [] [] next
  | keep {next last : Nat} {c : Char} {cs ds : List Char} :
      c ≠ '?' → Marked style next cs ds last → Marked style next (c :: cs) (c :: ds) last
  | mark {next last : Nat} {cs ds : List Char} :
      Marked style (next + 1) cs ds last →
      Marked style next ('?' :: cs) ((style.mark next).toList ++ ds) last

/-- The same of several texts, whose placeholders are numbered through. -/
inductive MarkedAll (style : Placeholder) : Nat → List String → List String → Nat → Prop
  | nil (next : Nat) : MarkedAll style next [] [] next
  | cons {next mid last : Nat} {a b : String} {as bs : List String} :
      Marked style next a.toList b.toList mid → MarkedAll style mid as bs last →
      MarkedAll style next (a :: as) (b :: bs) last

theorem MarkedAll.append {style : Placeholder} {next mid last : Nat} {as bs as' bs' : List String}
    (h : MarkedAll style next as bs mid) (h' : MarkedAll style mid as' bs' last) :
    MarkedAll style next (as ++ as') (bs ++ bs') last := by
  induction h with
  | nil => exact h'
  | cons hmarked _ ih => exact .cons hmarked (ih h')

theorem MarkedAll.length_eq {style : Placeholder} {next last : Nat} {as bs : List String}
    (h : MarkedAll style next as bs last) : as.length = bs.length := by
  induction h with
  | nil => rfl
  | cons _ _ ih => rw [List.length_cons, List.length_cons, ih]

/-- The second formula has the atoms of the first one, with placeholders for their question
marks, and the same truth value in every case. -/
structure Formula.Marked (style : Placeholder) (next : Nat) (φ ψ : Formula) (last : Nat) :
    Prop where
  atoms : MarkedAll style next φ.atoms ψ.atoms last
  eval : ∀ v, ψ.eval v = φ.eval v

theorem Formula.Marked.size {style : Placeholder} {next last : Nat} {φ ψ : Formula}
    (h : φ.Marked style next ψ last) : ψ.size = φ.size :=
  h.atoms.length_eq.symm

theorem Formula.Marked.join {style : Placeholder} {next mid last : Nat} {φ φ' ψ ψ' : Formula}
    (h : φ.Marked style next ψ mid) (op : Connective) (h' : φ'.Marked style mid ψ' last) :
    (Formula.join φ op φ').Marked style next (.join ψ op ψ') last where
  atoms := h.atoms.append h'.atoms
  eval v := by rw [Formula.eval_join, Formula.eval_join, h.eval, h'.eval, h.size]

section

variable (style : Placeholder)

theorem marked_renumber (next : Nat) (cs : List Char) :
    Marked style next cs (Clause.renumber style next cs) (next + cs.count '?') := by
  induction cs generalizing next with
  | nil => exact .nil next
  | cons c cs ih =>
    by_cases hmark : c = '?'
    · subst hmark
      have hlast : next + (cs.count '?' + 1) = next + 1 + cs.count '?' := by omega
      rw [Clause.renumber_mark, List.count_cons_self, hlast]
      exact .mark (ih (next + 1))
    · rw [Clause.renumber_cons_of_ne _ _ hmark, List.count_cons_of_ne hmark]
      exact .keep hmark (ih next)

/-! ### Symbols -/

/-- The number of question marks in some symbols. -/
def marks : List Symbol → Nat
  | [] => 0
  | .text w :: ss => w.count '?' + marks ss
  | _ :: ss => marks ss

theorem marks_append (ss ts : List Symbol) : marks (ss ++ ts) = marks ss + marks ts := by
  induction ss with
  | nil => rw [List.nil_append, marks, Nat.zero_add]
  | cons s ss ih =>
    cases s with
    | text w => rw [List.cons_append, marks, marks, ih, Nat.add_assoc]
    | _ => exact ih

/-- The blank between two words is no question mark. -/
theorem count_words (w w' : List Char) :
    (w ++ ' ' :: w').count '?' = w.count '?' + w'.count '?' := by
  rw [List.count_append, List.count_cons_of_ne (by decide)]

theorem marks_before (w : List Char) (ss : List Symbol) :
    marks ((Symbol.ofWord w).before ss) = w.count '?' + marks ss := by
  by_cases hword : w.map Char.toLower ∈ keywords
  · -- A connective is written without a question mark.
    have hmark : '?' ∉ w := fun hmem => notMem_keywords hmem (by decide) hword
    obtain ⟨op, hop⟩ := exists_ofWord_eq_connect hword
    rw [hop, List.count_eq_zero.mpr hmark, Nat.zero_add]
    rfl
  · rw [ofWord_eq_text hword]
    cases ss with
    | nil => rfl
    | cons s ss =>
      cases s with
      | text w' => rw [Symbol.before, marks, marks, count_words, Nat.add_assoc]
      | _ => rfl

/-- No question mark is lost when a text is cut into symbols. -/
theorem marks_symbols (cs : List Char) : marks (symbols cs) = cs.count '?' := by
  fun_induction symbols cs with
  | case1 => rfl
  | case2 cs ih =>
    rw [List.count_cons_of_ne (by decide), ← ih]
    rfl
  | case3 cs _ ih =>
    rw [List.count_cons_of_ne (by decide), ← ih]
    rfl
  | case4 c cs _ _ hwhite ih =>
    have hmark : c ≠ '?' := by
      rintro rfl
      exact absurd hwhite (by decide)
    rw [ih, List.count_cons_of_ne hmark]
  | case5 c cs hopening hclosing hwhite ih =>
    obtain ⟨-, -, htext⟩ := exists_word hopening hclosing hwhite cs
    rw [marks_before, ih, ← List.count_append, ← htext]

/-- The symbols of a condition with other placeholders, the first of which has the number
`next`. -/
def renumber (style : Placeholder) : Nat → List Symbol → List Symbol
  | _, [] => []
  | next, .text w :: ss =>
    .text (Clause.renumber style next w) :: renumber style (next + w.count '?') ss
  | next, s :: ss => s :: renumber style next ss

theorem all_isPlain_renumber (next : Nat) {w : List Char} (h : w.all isPlain = true) :
    (Clause.renumber style next w).all isPlain = true := by
  induction w generalizing next with
  | nil => exact h
  | cons c cs ih =>
    rw [List.all_cons, Bool.and_eq_true] at h
    by_cases hmark : c = '?'
    · subst hmark
      rw [Clause.renumber_mark, List.all_append, (isWord_mark style next).plain,
        ih (next + 1) h.2]
      rfl
    · rw [Clause.renumber_cons_of_ne _ _ hmark, List.all_cons, h.1, ih next h.2]
      rfl

theorem renumber_ne_nil (next : Nat) {w : List Char} (h : w ≠ []) :
    Clause.renumber style next w ≠ [] := by
  cases w with
  | nil => exact absurd rfl h
  | cons c cs =>
    by_cases hmark : c = '?'
    · subst hmark
      rw [Clause.renumber_mark]
      exact List.append_ne_nil_of_left_ne_nil (isWord_mark style next).ne_nil _
    · rw [Clause.renumber_cons_of_ne _ _ hmark]
      exact List.cons_ne_nil _ _

theorem stops_renumber (next : Nat) {cs : List Char} (h : Stops isPlain cs) :
    Stops isPlain (Clause.renumber style next cs) := by
  cases cs with
  | nil => exact h
  | cons c cs =>
    have hmark : c ≠ '?' := by
      rintro rfl
      exact absurd (h '?' rfl) (by decide)
    rw [Clause.renumber_cons_of_ne _ _ hmark]
    exact h

/-- A word with a placeholder is no connective, before and after. -/
theorem ofWord_renumber (next : Nat) {w : List Char} (h : '?' ∈ w) :
    Symbol.ofWord w = .text w ∧
      Symbol.ofWord (Clause.renumber style next w) = .text (Clause.renumber style next w) := by
  refine ⟨ofWord_eq_text (notMem_keywords h (by decide)), ofWord_eq_text ?_⟩
  obtain ⟨before, after, rfl⟩ := List.append_of_mem h
  have hmark : ∃ c ∈ (style.mark (next + before.count '?')).toList,
      c.toLower ∉ keywords.flatten := by
    cases style with
    | sequential =>
      rw [Placeholder.toList_mark_sequential]
      exact ⟨'?', List.mem_cons_self, by decide⟩
    | numbered =>
      rw [Placeholder.toList_mark_numbered]
      exact ⟨'$', List.mem_cons_self, by decide⟩
  obtain ⟨c, hc, hlower⟩ := hmark
  rw [Clause.renumber_append, Clause.renumber_mark]
  exact notMem_keywords (by simp [hc]) hlower

theorem renumber_before (next : Nat) (w : List Char) (ss : List Symbol) :
    renumber style next ((Symbol.ofWord w).before ss) =
      (Symbol.ofWord (Clause.renumber style next w)).before
        (renumber style (next + w.count '?') ss) := by
  have htext : Symbol.ofWord w = .text w →
      Symbol.ofWord (Clause.renumber style next w) = .text (Clause.renumber style next w) →
      renumber style next ((Symbol.ofWord w).before ss) =
        (Symbol.ofWord (Clause.renumber style next w)).before
          (renumber style (next + w.count '?') ss) := by
    intro hw hw'
    rw [hw, hw']
    cases ss with
    | nil => rfl
    | cons s ss =>
      cases s with
      | text w' =>
        simp only [Symbol.before, renumber, Clause.renumber_append, count_words, Nat.add_assoc,
          Clause.renumber_cons_of_ne style _ (by decide : ' ' ≠ '?')]
      | _ => rfl
  by_cases hmark : '?' ∈ w
  · obtain ⟨hw, hw'⟩ := ofWord_renumber style next hmark
    exact htext hw hw'
  · have hsame := Clause.renumber_of_notMem style next hmark
    by_cases hword : w.map Char.toLower ∈ keywords
    · obtain ⟨op, hop⟩ := exists_ofWord_eq_connect hword
      rw [hsame, hop, List.count_eq_zero.mpr hmark]
      rfl
    · exact htext (ofWord_eq_text hword) (hsame.symm ▸ ofWord_eq_text hword)

/-- Numbering the placeholders anew does not change how a text is cut into symbols. -/
theorem symbols_renumber (next : Nat) (cs : List Char) :
    symbols (Clause.renumber style next cs) = renumber style next (symbols cs) := by
  fun_induction symbols cs generalizing next with
  | case1 => rw [Clause.renumber, symbols, renumber]
  | case2 cs ih =>
    rw [Clause.renumber_cons_of_ne _ _ (by decide), symbols_opening, ih]
    rfl
  | case3 cs _ ih =>
    rw [Clause.renumber_cons_of_ne _ _ (by decide), symbols_closing, ih]
    rfl
  | case4 c cs _ _ hwhite ih =>
    have hmark : c ≠ '?' := by
      rintro rfl
      exact absurd hwhite (by decide)
    rw [Clause.renumber_cons_of_ne _ _ hmark, symbols_white hwhite, ih]
  | case5 c cs hopening hclosing hwhite ih =>
    obtain ⟨hplain, hstops, htext⟩ := exists_word hopening hclosing hwhite cs
    rw [renumber_before, ← ih]
    rw [htext, Clause.renumber_append, symbols_word
      (renumber_ne_nil style next (List.cons_ne_nil _ _))
      (all_isPlain_renumber style next hplain) (stops_renumber style _ hstops)]

theorem renumber_append (next : Nat) (ss ts : List Symbol) :
    renumber style next (ss ++ ts) =
      renumber style next ss ++ renumber style (next + marks ss) ts := by
  induction ss generalizing next with
  | nil => rfl
  | cons s ss ih =>
    cases s with
    | text w =>
      rw [List.cons_append, renumber, renumber, marks, ih, Nat.add_assoc, List.cons_append]
    | _ => exact congrArg (_ :: ·) (ih next)

/-- Two conditions with a connective between them are numbered through. -/
theorem renumber_connect (next : Nat) (ss : List Symbol) (op : Connective) (ts : List Symbol) :
    renumber style next (ss ++ .connect op :: ts) =
      renumber style next ss ++ .connect op :: renumber style (next + marks ss) ts := by
  rw [renumber_append]
  rfl

theorem marks_connect (next : Nat) (ss : List Symbol) (op : Connective) (ts : List Symbol) :
    next + marks (ss ++ .connect op :: ts) = next + marks ss + marks ts := by
  rw [marks_append, Nat.add_assoc]
  rfl

/-! ### Formulas -/

/-- **Numbering the placeholders anew does not change how a condition is read.** -/
theorem Reads.renumber {level : Level} {ss : List Symbol} {φ : Formula} (h : Reads level ss φ)
    (next : Nat) :
    ∃ ψ, Reads level (Condition.renumber style next ss) ψ ∧
      φ.Marked style next ψ (next + marks ss) := by
  induction h generalizing next with
  | atom w =>
    refine ⟨_, .atom _, .cons ?_ (.nil _), fun _ => rfl⟩
    rw [String.toList_ofList, String.toList_ofList]
    exact marked_renumber style next w
  | @group ss φ _ ih =>
    obtain ⟨ψ, hψ, hmarked⟩ := ih next
    refine ⟨ψ, ?_, ?_⟩
    · show Reads .operand (.opening :: Condition.renumber style next (ss ++ [.closing])) ψ
      rw [renumber_append]
      exact .group hψ
    · show φ.Marked style next ψ (next + marks (ss ++ [.closing]))
      rw [marks_append]
      exact hmarked
  | operand _ ih =>
    obtain ⟨ψ, hψ, hmarked⟩ := ih next
    exact ⟨ψ, .operand hψ, hmarked⟩
  | @and ss ts _ _ _ _ ihl ihr =>
    obtain ⟨ψ, hψ, hmarked⟩ := ihl next
    obtain ⟨ψ', hψ', hmarked'⟩ := ihr (next + marks ss)
    rw [renumber_connect, marks_connect]
    exact ⟨_, .and hψ hψ', hmarked.join .and hmarked'⟩
  | conjunction _ ih =>
    obtain ⟨ψ, hψ, hmarked⟩ := ih next
    exact ⟨ψ, .conjunction hψ, hmarked⟩
  | @or ss ts _ _ _ _ ihl ihr =>
    obtain ⟨ψ, hψ, hmarked⟩ := ihl next
    obtain ⟨ψ', hψ', hmarked'⟩ := ihr (next + marks ss)
    rw [renumber_connect, marks_connect]
    exact ⟨_, .or hψ hψ', hmarked.join .or hmarked'⟩

theorem OpenOr.renumber {ss : List Symbol} {φ : Formula} (h : OpenOr ss φ) (next : Nat) :
    ∃ ψ, OpenOr (Condition.renumber style next ss) ψ ∧ φ.Marked style next ψ (next + marks ss) := by
  obtain ⟨hleft, hright⟩ := h
  rename_i ss ts φ φ'
  obtain ⟨ψ, hψ, hmarked⟩ := hleft.renumber style next
  obtain ⟨ψ', hψ', hmarked'⟩ := hright.renumber style (next + marks ss)
  rw [renumber_connect, marks_connect]
  exact ⟨_, .mk hψ hψ', hmarked.join .or hmarked'⟩

end

end Condition

end FilterQuery
