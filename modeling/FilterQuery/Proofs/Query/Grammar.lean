/-
The grammar of queries.

A query is a group of operands with connectives between them; an operand is a
comparison, or a group between parentheses.  Blanks play no part in it, so the
grammar speaks of lexemes without them (`significant`).

* **`Derives`** — the lexemes of a group or of an operand, and the tree they stand
  for;
* **`derives_group_iff`** — a group is `operand (connective operand)*`, and its tree is
  the left fold of its operands;
* **`NestingWithin`** — no lexeme stands inside more than so many open groups;
* **`Spans`** — the significant lexemes of some tokens, which can be split where the
  lexemes can.

Design notes.  The rule for groups is written with the group on the left of the
connective.  This is the left fold in the form in which a proof by induction meets it,
one connective at a time.
-/
import FilterQuery.Expr.Walk
import FilterQuery.Token.Basic
import Mathlib.Data.List.Induction

namespace FilterQuery

/-- The lexemes of some tokens without blanks and without the end of the text. -/
def significant (ts : List Token) : List Lexeme :=
  (ts.map Token.lexeme).filter fun x => x ≠ .blank ∧ x ≠ .ending

/-- The two kinds of phrases. -/
inductive Phrase
  | group
  | operand

/-- The grammar: what some lexemes are as a phrase, and the tree they stand for. -/
inductive Derives : Phrase → List Lexeme → Expr → Prop
  /-- A column, a comparison and a value. -/
  | comparison (kind : WordKind) (column : String) (op : CompareOp) (kind' : WordKind)
      (value : String) :
      Derives .operand [.word kind column, .compare op, .word kind' value]
        (.comparison ⟨column, op, some value⟩)
  /-- A group between parentheses stands for the tree inside. -/
  | parens {ls : List Lexeme} {e : Expr} :
      Derives .group ls e → Derives .operand (.opening :: (ls ++ [.closing])) e
  /-- A single operand is a group. -/
  | single {ls : List Lexeme} {e : Expr} : Derives .operand ls e → Derives .group ls e
  /-- A group goes on with a connective and an operand; all before becomes the left side. -/
  | join {ls ms : List Lexeme} {l r : Expr} (op : Connective) :
      Derives .group ls l → Derives .operand ms r →
        Derives .group (ls ++ .connect op :: ms) (.logical l op r)

/-- Before each lexeme, at most `limit` groups have been opened and not been closed. -/
def NestingWithin (limit : Nat) (ls : List Lexeme) : Prop :=
  ∀ i < ls.length, (ls.take i).count .opening ≤ (ls.take i).count .closing + limit

instance (limit : Nat) (ls : List Lexeme) : Decidable (NestingWithin limit ls) :=
  inferInstanceAs (Decidable (∀ i < ls.length, _))

/-! ### The tokens that matter -/

theorem significant_append (ts us : List Token) :
    significant (ts ++ us) = significant ts ++ significant us := by
  simp [significant]

/-- The tokens come before the end of the text, and their significant lexemes are those
given. -/
structure Spans (ts : List Token) (ls : List Lexeme) : Prop where
  ne_ending : ∀ t ∈ ts, t.lexeme ≠ .ending
  lexemes : significant ts = ls

namespace Spans

variable {t : Token} {ts : List Token} {x : Lexeme} {ls ms : List Lexeme}

theorem split_append (h : Spans ts (ls ++ ms)) :
    ∃ us vs, ts = us ++ vs ∧ Spans us ls ∧ Spans vs ms := by
  obtain ⟨hts, h⟩ := h
  obtain ⟨xs, ys, hmap, hl, hr⟩ := List.filter_eq_append_iff.mp h
  obtain ⟨us, vs, rfl, rfl, rfl⟩ := List.map_eq_append_iff.mp hmap
  obtain ⟨hus, hvs⟩ := List.forall_mem_append.mp hts
  exact ⟨us, vs, rfl, ⟨hus, hl⟩, ⟨hvs, hr⟩⟩

/-- What the first significant lexeme is preceded by is not significant. -/
theorem split_cons (h : Spans ts (x :: ls)) :
    ∃ us t vs, ts = us ++ t :: vs ∧ Spans us [] ∧ t.lexeme = x ∧ Spans vs ls := by
  obtain ⟨hts, h⟩ := h
  obtain ⟨xs, ys, hmap, hxs, hx, hr⟩ := List.filter_eq_cons_iff.mp h
  obtain ⟨us, ws, rfl, rfl, hws⟩ := List.map_eq_append_iff.mp hmap
  obtain ⟨t, vs, rfl, ht, rfl⟩ := List.map_eq_cons_iff.mp hws
  obtain ⟨hus, hvs⟩ := List.forall_mem_append.mp hts
  refine ⟨us, t, vs, rfl, ⟨hus, List.filter_eq_nil_iff.mpr hxs⟩, ht, ?_, hr⟩
  exact (List.forall_mem_cons.mp hvs).2

/-- The first token counts, unless it is a blank. -/
theorem of_cons (h : Spans (t :: ts) ls) :
    t.lexeme ≠ .ending ∧ ∃ ms, Spans ts ms ∧ ls = [t.lexeme].filter (· ≠ .blank) ++ ms := by
  obtain ⟨hts, rfl⟩ := h
  obtain ⟨ht, hts⟩ := List.forall_mem_cons.mp hts
  refine ⟨ht, significant ts, ⟨hts, rfl⟩, ?_⟩
  rw [← List.singleton_append, significant_append]
  simp [significant, List.filter_cons, ht]

end Spans

/-! ### Groups as lists of operands -/

/-- **A group is `operand (connective operand)*`**, and its tree is the left fold of its
operands with its connectives. -/
theorem derives_group_iff {ls : List Lexeme} {e : Expr} :
    Derives .group ls e ↔
      ∃ (ms : List Lexeme) (a : Expr) (rest : List (Connective × List Lexeme × Expr)),
        Derives .operand ms a ∧ (∀ x ∈ rest, Derives .operand x.2.1 x.2.2) ∧
        ls = ms ++ rest.flatMap (fun x => .connect x.1 :: x.2.1) ∧
        e = rest.foldl (fun l x => .logical l x.1 x.2.2) a := by
  constructor
  · intro h
    generalize hp : Phrase.group = p at h
    induction h with
    | comparison => cases hp
    | parens => cases hp
    | single h _ => exact ⟨_, _, [], h, by simp, by simp, rfl⟩
    | @join _ ns _ r op _ hr ihl _ =>
      obtain ⟨ms, a, rest, ha, hrest, rfl, rfl⟩ := ihl hp
      refine ⟨ms, a, rest ++ [(op, ns, r)], ha, ?_, by simp, by simp⟩
      intro x hx
      rcases List.mem_append.mp hx with hx | hx
      · exact hrest x hx
      · rw [List.mem_singleton.mp hx]
        exact hr
  · rintro ⟨ms, a, rest, ha, hrest, rfl, rfl⟩
    -- Connectives are added on the right, so the list is taken apart from its end.
    induction rest using List.reverseRecOn with
    | nil => simpa using Derives.single ha
    | append_singleton rest x ih =>
      have hleft := ih fun y hy => hrest y (List.mem_append_left _ hy)
      have hright := hrest x (List.mem_append_right _ (List.mem_singleton.mpr rfl))
      simpa using Derives.join x.1 hleft hright

/-! ### Parentheses in phrases -/

namespace Derives

/-- A phrase closes all groups that it opens. -/
theorem count_opening {p : Phrase} {ls : List Lexeme} {e : Expr} (h : Derives p ls e) :
    ls.count .opening = ls.count .closing := by
  induction h with
  | comparison => rfl
  | parens _ ih => simp [ih]
  | single _ ih => exact ih
  | join op _ _ ihl ihr => simp [ihl, ihr]

end Derives

theorem nestingWithin_parens {limit : Nat} {ls : List Lexeme} (h : NestingWithin limit ls)
    (hc : ls.count .opening = ls.count .closing) :
    NestingWithin (limit + 1) (.opening :: (ls ++ [.closing])) := by
  intro i hi
  rcases i with _ | i
  · simp
  · have hi' : i < ls.length + 1 := by simpa using hi
    rw [List.take_succ_cons, List.take_append]
    -- Before the closing parenthesis, all groups inside have been closed again.
    by_cases hlt : i < ls.length
    · have hle := h i hlt
      rw [show i - ls.length = 0 by omega]
      simp
      omega
    · rw [show i = ls.length by omega]
      simp [hc]

theorem nestingWithin_append {limit : Nat} {ls ms : List Lexeme} (hl : NestingWithin limit ls)
    (hc : ls.count .opening = ls.count .closing) (hm : NestingWithin limit ms) :
    NestingWithin limit (ls ++ ms) := by
  intro i hi
  rw [List.length_append] at hi
  rw [List.take_append]
  by_cases hlt : i < ls.length
  · have hle := hl i hlt
    rw [show i - ls.length = 0 by omega]
    simpa using hle
  · have hle := hm (i - ls.length) (by omega)
    rw [List.take_of_length_le (by omega)]
    simp only [List.count_append, hc]
    omega

end FilterQuery
