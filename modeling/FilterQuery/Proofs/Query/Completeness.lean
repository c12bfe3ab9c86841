/-
Which trees that are read are complete.

A tree is complete if each of its comparisons has a column and a value.  A value is
always there.  A column is there unless it is written as an empty quoted word, which
the grammar takes for a column like any other word.

* **`columnWords`** — the words that stand before a comparison;
* **`Derives.map_column_leaves`** — they are the columns of the tree, from left to right;
* **`parse_isComplete_iff`** — a tree that is read is complete exactly if no empty quoted
  word stands before a comparison;
* **`parse_emptyColumn_not_complete`** — the shortest query for which it is not.
-/
import FilterQuery.Proofs.Query.Recognition
import FilterQuery.Proofs.Token.Segmentation

namespace FilterQuery

/-- The words that stand right before a comparison. -/
def columnWords : List Lexeme → List (WordKind × String)
  | .word kind text :: .compare _ :: ls => (kind, text) :: columnWords ls
  | _ :: ls => columnWords ls
  | [] => []

/-- What stands before anything but a comparison has its columns for itself. -/
theorem columnWords_append {x : Lexeme} (hx : ∀ op, x ≠ .compare op) (ls ms : List Lexeme) :
    columnWords (ls ++ x :: ms) = columnWords ls ++ columnWords (x :: ms) := by
  fun_induction columnWords ls with
  | case1 kind text op ls ih =>
    rw [List.cons_append, List.cons_append, columnWords, ih]
    rfl
  | case2 y ls hne ih =>
    rw [List.cons_append, columnWords.eq_2, ih]
    intro kind text op ns hy hls
    cases ls with
    | nil => exact hx op (List.cons.inj hls).1
    | cons z ls =>
      cases hls
      exact hne kind text op ls hy rfl
  | case3 => rfl

theorem mem_columnWords_iff {kind : WordKind} {text : String} {ls : List Lexeme} :
    (kind, text) ∈ columnWords ls ↔ ∃ op, [.word kind text, .compare op] <:+: ls := by
  fun_induction columnWords ls with
  | case1 kind' text' op ls ih =>
    simp only [List.mem_cons, Prod.mk.injEq, ih, List.infix_cons_iff, List.cons_prefix_cons,
      Lexeme.word.injEq, Lexeme.compare.injEq, List.nil_prefix, and_true, reduceCtorEq, false_and,
      false_or, exists_or]
    simp
  | case2 y ls hne ih =>
    have hnot : ∀ op, ¬ [.word kind text, .compare op] <+: y :: ls := by
      rintro op ⟨ns, hns⟩
      cases hns
      exact hne kind text op ns rfl rfl
    simp only [ih, List.infix_cons_iff, hnot, false_or]
  | case3 => simp

/-! ### The leaves of a tree that is derived -/

namespace Derives

variable {p : Phrase} {ls : List Lexeme} {e : Expr}

/-- **The columns of a tree are the words before comparisons.** -/
theorem map_column_leaves (h : Derives p ls e) :
    e.leaves.map Comparison.column = (columnWords ls).map Prod.snd := by
  induction h with
  | comparison =>
    rw [Expr.leaves_comparison]
    rfl
  | parens _ ih =>
    show _ = (columnWords (_ ++ [.closing])).map Prod.snd
    rw [columnWords_append (x := .closing) nofun, ih]
    simp [columnWords]
  | single _ ih => exact ih
  | join op _ _ ihl ihr =>
    rw [columnWords_append (x := .connect op) nofun, Expr.leaves_logical, List.map_append,
      List.map_append, ihl, ihr]
    rfl

theorem value_leaves (h : Derives p ls e) : ∀ c ∈ e.leaves, c.value.isSome = true := by
  induction h with
  | comparison =>
    rw [Expr.leaves_comparison]
    simp
  | parens _ ih => exact ih
  | single _ ih => exact ih
  | join op _ _ ihl ihr =>
    rw [Expr.leaves_logical]
    exact List.forall_mem_append.mpr ⟨ihl, ihr⟩

end Derives

/-- With all its values, a tree lacks at most a column. -/
theorem Expr.isComplete_iff {e : Expr} (h : ∀ c ∈ e.leaves, c.value.isSome = true) :
    e.isComplete = true ↔ "" ∉ e.leaves.map Comparison.column := by
  rw [Expr.isComplete, List.all_eq_true, List.mem_map]
  constructor
  · rintro hall ⟨c, hc, hempty⟩
    have hcomplete := hall c hc
    simp [Comparison.isComplete, hempty] at hcomplete
  · intro hnone c hc
    have hcolumn : c.column ≠ "" := fun hempty => hnone ⟨c, hc, hempty⟩
    simp [Comparison.isComplete, h c hc, hcolumn]

/-! ### Empty words -/

/-- Of the words of a query, only a quoted one is empty. -/
theorem kind_of_empty_word {query : String} {ts : List Token} (h : tokenize query = .ok ts)
    {kind : WordKind} (hmem : .word kind "" ∈ significant ts) : kind = .quoted := by
  obtain ⟨ss, hss, -, rfl⟩ := exists_segments_of_tokenize h
  have hlexeme := (List.mem_filter.mp hmem).1
  rw [placeAll, List.map_append, map_lexeme_place, List.mem_append] at hlexeme
  rcases hlexeme with hlexeme | hlexeme
  · obtain ⟨s, hs, hword⟩ := List.mem_map.mp hlexeme
    have hpiece := hss.alone s hs
    rw [hword] at hpiece
    by_contra hkind
    exact hpiece.text_ne_empty hkind rfl
  · simp at hlexeme

/-- **A tree that is read is complete unless a column is written as an empty quoted word.**
Every comparison has a value in any case. -/
theorem parse_isComplete_iff (query : String) (e : Expr) (h : parse query = .ok e) :
    (∀ c ∈ e.leaves, c.value.isSome = true) ∧
      ∃ ts, tokenize query = .ok ts ∧
        (e.isComplete = true ↔
          ¬ ∃ op, [.word .quoted "", .compare op] <:+: significant ts) := by
  obtain ⟨ts, htok, hgroup, -⟩ := parse_derives h
  refine ⟨hgroup.value_leaves, ts, htok, ?_⟩
  rw [Expr.isComplete_iff hgroup.value_leaves, hgroup.map_column_leaves, not_iff_not,
    ← mem_columnWords_iff, List.mem_map]
  constructor
  · rintro ⟨⟨kind, text⟩, hmem, rfl⟩
    -- The word is a lexeme of the query, so only its quotes can make it empty.
    obtain ⟨op, hinfix⟩ := mem_columnWords_iff.mp hmem
    have hword := hinfix.subset List.mem_cons_self
    rw [← kind_of_empty_word htok hword]
    exact hmem
  · intro hmem
    exact ⟨_, hmem, rfl⟩

/-- A bare column with an empty value, and a quoted column that says something. -/
theorem parse_emptyValue_complete :
    let query := "a='' or \"b c\">1"
    let e : Expr := .logical (.comparison ⟨"a", .eq, some ""⟩) .or
      (.comparison ⟨"b c", .gt, some "1"⟩)
    parse query = .ok e ∧ e.isComplete = true := by
  intro query e
  have hparse : parse query = .ok e := by decide +kernel
  obtain ⟨-, ts, htok, hiff⟩ := parse_isComplete_iff query e hparse
  have hts : tokenize query = .ok [⟨.word .symbol "a", 0⟩, ⟨.compare .eq, 1⟩,
      ⟨.word .quoted "", 2⟩, ⟨.blank, 4⟩, ⟨.connect .or, 5⟩, ⟨.blank, 7⟩, ⟨.word .quoted "b c", 8⟩,
      ⟨.compare .gt, 13⟩, ⟨.word .number "1", 14⟩, ⟨.ending, 15⟩] := by decide +kernel
  cases htok.symm.trans hts
  refine ⟨hparse, hiff.mpr ?_⟩
  rw [← mem_columnWords_iff]
  decide

/-- An empty quoted word is taken for a column, so the tree that is read is not complete. -/
theorem parse_emptyColumn_not_complete :
    ∃ e, parse "\"\"=x" = .ok e ∧ e.isComplete = false := by
  refine ⟨.comparison ⟨"", .eq, some "x"⟩, by decide +kernel, ?_⟩
  rw [Expr.isComplete, Expr.leaves_comparison]
  rfl

end FilterQuery
