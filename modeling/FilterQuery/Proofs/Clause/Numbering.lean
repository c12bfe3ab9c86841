/-
The two styles of placeholders say the same.

* **`Expr.compileAt_outcome`** — what a tree binds, or why it has no clause, depends
  neither on the style nor on what was bound before;
* **`Clause.place`** — a clause with question marks, written in a style after a number of
  arguments that are bound already;
* **`Expr.compileAt_eq_place`** — if no column brings a question mark of its own, the
  clause of a tree in any style is its clause with question marks, put in place;
* **`compile_styles_agree`** — all together, with the numbers spelled out.

Design notes.  Two rules number the placeholders: a field without a converter takes the
number after the arguments bound so far, and the clause of a converter is counted
through from there.  If the column is free of question marks, the first rule is a case
of the second (`Clause.place_plain`).  What is left is that putting in place commutes
with joining, as long as the left side has a question mark for every argument
(`Clause.Balanced.place_join`).
-/
import FilterQuery.Proofs.Clause.Composition

namespace FilterQuery

/-- The same options with another style of placeholders. -/
def Options.withPlaceholder (o : Options) (style : Placeholder) : Options :=
  { o with settings := { o.settings with placeholder := style } }

/-- The column that a comparison is compiled to brings no question mark of its own,
unless a converter has a say. -/
def Comparison.Unmarked (c : Comparison) (catalog : Catalog) (o : Options) : Prop :=
  ∀ f, c.resolve catalog o = .ok f → o.converter? f.column = none →
    '?' ∉ (f.columnText o).toList

theorem CompareOp.mark_notMem_sql (op : CompareOp) : '?' ∉ op.sql.toList := by
  cases op <;> decide

theorem Connective.mark_notMem_word (op : Connective) : '?' ∉ op.word.toList := by
  cases op <;> decide

theorem Placeholder.toList_mark_sequential (n : Nat) : (mark .sequential n).toList = ['?'] := by
  rw [mark]
  rfl

theorem Placeholder.toList_mark_numbered (n : Nat) :
    (mark .numbered n).toList = '$' :: (toString n).toList := by
  rw [mark, String.toList_append]
  rfl

namespace Clause

/-! ### Renumbering -/

theorem renumber_mark (style : Placeholder) (next : Nat) (cs : List Char) :
    renumber style next ('?' :: cs) =
      (style.mark next).toList ++ renumber style (next + 1) cs := by
  rw [renumber]

theorem renumber_cons_of_ne (style : Placeholder) (next : Nat) {c : Char} (h : c ≠ '?')
    (cs : List Char) : renumber style next (c :: cs) = c :: renumber style next cs := by
  rw [renumber]
  exact h

theorem renumber_append (style : Placeholder) (next : Nat) (cs ds : List Char) :
    renumber style next (cs ++ ds) =
      renumber style next cs ++ renumber style (next + cs.count '?') ds := by
  induction cs generalizing next with
  | nil => rfl
  | cons c cs ih =>
    by_cases hc : c = '?'
    · subst hc
      have hnext : next + 1 + cs.count '?' = next + (cs.count '?' + 1) := by omega
      rw [List.cons_append, renumber_mark, renumber_mark, ih, List.count_cons_self, hnext,
        List.append_assoc]
    · rw [List.cons_append, renumber_cons_of_ne _ _ hc, renumber_cons_of_ne _ _ hc, ih,
        List.count_cons_of_ne hc, List.cons_append]

theorem renumber_of_notMem (style : Placeholder) (next : Nat) {cs : List Char} (h : '?' ∉ cs) :
    renumber style next cs = cs := by
  induction cs with
  | nil => rfl
  | cons c cs ih =>
    obtain ⟨hc, hcs⟩ := List.ne_and_not_mem_of_not_mem_cons h
    rw [renumber_cons_of_ne _ _ (Ne.symm hc), ih hcs]

/-- Texts with marks between them, numbered from `next` on. -/
def weave (mark : Nat → List Char) (next : Nat) (first : List Char) :
    List (List Char) → List Char
  | [] => first
  | second :: rest => first ++ mark next ++ weave mark (next + 1) second rest

theorem weave_cons (mark : Nat → List Char) (next : Nat) (c : Char) (first : List Char)
    (rest : List (List Char)) :
    weave mark next (c :: first) rest = c :: weave mark next first rest := by
  cases rest with
  | nil => rfl
  | cons second rest => rfl

/-- A condition is its texts between question marks, and renumbering puts other marks in
their place. -/
theorem exists_renumber_eq_weave (cs : List Char) :
    ∃ first rest, '?' ∉ first ∧ (∀ text ∈ rest, '?' ∉ text) ∧ rest.length = cs.count '?' ∧
      ∀ style next,
        renumber style next cs = weave (fun n => (style.mark n).toList) next first rest := by
  induction cs with
  | nil => exact ⟨[], [], List.not_mem_nil, nofun, rfl, fun _ _ => rfl⟩
  | cons c cs ih =>
    obtain ⟨first, rest, hfirst, hrest, hlength, hweave⟩ := ih
    by_cases hc : c = '?'
    · -- A new text begins, with nothing before the mark.
      subst hc
      refine ⟨[], first :: rest, List.not_mem_nil, ?_, ?_, ?_⟩
      · exact List.forall_mem_cons.mpr ⟨hfirst, hrest⟩
      · rw [List.length_cons, hlength, List.count_cons_self]
      · intro style next
        rw [renumber_mark, hweave, weave, List.nil_append]
    · refine ⟨c :: first, rest, ?_, hrest, ?_, ?_⟩
      · exact List.not_mem_cons_of_ne_of_not_mem (Ne.symm hc) hfirst
      · rw [hlength, List.count_cons_of_ne hc]
      · intro style next
        rw [renumber_cons_of_ne _ _ hc, hweave, weave_cons]

/-! ### Putting in place -/

/-- There is a question mark for every argument. -/
def Balanced (k : Clause) : Prop :=
  k.condition.toList.count '?' = k.args.length

/-- The clause in a style, after `bound` arguments. -/
def place (style : Placeholder) (bound : Nat) (k : Clause) : Clause :=
  ⟨String.ofList (renumber style (bound + 1) k.condition.toList), k.args⟩

theorem place_sequential (bound : Nat) (k : Clause) : k.place .sequential bound = k := by
  rw [place, renumber_sequential, String.ofList_toList]

/-- The clause of a converter is put in place, or refused in every place. -/
theorem embed_outcome (k : Clause) (column : String) :
    (∃ err, ∀ style bound, k.embed style bound column = .error err) ∨
      k.Balanced ∧ ∀ style bound, k.embed style bound column = .ok (k.place style bound) := by
  by_cases hk : k.Balanced
  · refine .inr ⟨hk, fun style bound => ?_⟩
    rw [embed, if_neg (fun h => h hk), place]
  · exact .inl ⟨_, fun style bound => if_pos hk⟩

theorem toList_condition_join (l : Clause) (op : Connective) (r : Clause) :
    (l.join op r).condition.toList =
      '(' :: (l.condition.toList ++
        ' ' :: (op.word.toList ++ ' ' :: (r.condition.toList ++ [')']))) := by
  simp [join]

theorem Balanced.join {l r : Clause} (hl : l.Balanced) (op : Connective) (hr : r.Balanced) :
    (l.join op r).Balanced := by
  have hword : op.word.toList.count '?' = 0 := List.count_eq_zero.mpr op.mark_notMem_word
  rw [Balanced] at hl hr ⊢
  rw [toList_condition_join, Clause.join, List.length_append, ← hl, ← hr]
  simp [hword]

/-- Two clauses that are joined are put in place one behind the other. -/
theorem Balanced.place_join {l : Clause} (hl : l.Balanced) (style : Placeholder) (bound : Nat)
    (op : Connective) (r : Clause) :
    (l.join op r).place style bound =
      (l.place style bound).join op (r.place style (bound + l.args.length)) := by
  have hnext : bound + 1 + l.condition.toList.count '?' = bound + l.args.length + 1 := by
    rw [hl]
    omega
  -- Only the two sides have question marks; the left one uses up its own arguments.
  have hcondition : renumber style (bound + 1) (l.join op r).condition.toList =
      ((l.place style bound).join op
        (r.place style (bound + l.args.length))).condition.toList := by
    have hword := op.mark_notMem_word
    rw [toList_condition_join, toList_condition_join, place, place, String.toList_ofList,
      String.toList_ofList, renumber_cons_of_ne _ _ (by decide), renumber_append, hnext,
      renumber_cons_of_ne _ _ (by decide), renumber_append, renumber_of_notMem _ _ hword,
      List.count_eq_zero.mpr hword, Nat.add_zero, renumber_cons_of_ne _ _ (by decide),
      renumber_append, renumber_of_notMem _ _ (by decide : '?' ∉ [')'])]
  rw [place, hcondition, String.ofList_toList]
  rfl

/-- The clause of a column, an operator and one placeholder. -/
theorem place_plain (style : Placeholder) (bound : Nat) {column : String}
    (h : '?' ∉ column.toList) (op : CompareOp) (v : Value) :
    place style bound ⟨column ++ op.sql ++ "?", [v]⟩ =
      ⟨column ++ op.sql ++ style.mark (bound + 1), [v]⟩ := by
  have htext : '?' ∉ (column ++ op.sql).toList := by
    rw [String.toList_append]
    exact List.not_mem_append h op.mark_notMem_sql
  have hmark : "?".toList = ['?'] := rfl
  rw [place, String.toList_append, renumber_append, renumber_of_notMem _ _ htext,
    List.count_eq_zero.mpr htext, hmark, renumber_mark, renumber, List.append_nil, Nat.add_zero,
    String.ofList_append, String.ofList_toList, String.ofList_toList]

theorem balanced_plain {column : String} (h : '?' ∉ column.toList) (op : CompareOp) (v : Value) :
    Balanced ⟨column ++ op.sql ++ "?", [v]⟩ := by
  have hsql : op.sql.toList.count '?' = 0 := List.count_eq_zero.mpr op.mark_notMem_sql
  have hcolumn : column.toList.count '?' = 0 := List.count_eq_zero.mpr h
  simp [Balanced, hsql, hcolumn]

end Clause

/-! ### Compiling in a style -/

variable {catalog : Catalog} {o : Options}

/-- The argument of a comparison with a field, or the error, is the same in every place. -/
theorem Field.compile_outcome (f : Field) (o : Options) (c : Comparison) :
    (∃ err, ∀ style bound, f.compile (o.withPlaceholder style) bound c = .error err) ∨
      ∃ v, ∀ style bound, f.compile (o.withPlaceholder style) bound c =
        .ok ⟨f.columnText o ++ c.op.sql ++ style.mark (bound + 1), [v]⟩ := by
  simp only [Field.compile]
  cases c.value with
  | none => exact .inl ⟨_, fun _ _ => rfl⟩
  | some raw =>
    by_cases hop : f.allows c.op = true
    · simp only [hop]
      cases f.read raw c.render with
      | error err => exact .inl ⟨err, fun _ _ => rfl⟩
      | ok v => exact .inr ⟨Field.argument c.op v, fun _ _ => rfl⟩
    · simp only [hop]
      exact .inl ⟨_, fun _ _ => rfl⟩

/-- What a comparison is compiled to: an error, the clause of a field without a
converter, or the clause of a converter put in place. -/
theorem Comparison.compile_outcome (c : Comparison) (catalog : Catalog) (o : Options) :
    (∃ err, ∀ style bound, c.compile catalog (o.withPlaceholder style) bound = .error err) ∨
      (∃ f v, c.resolve catalog o = .ok f ∧ o.converter? f.column = none ∧
        ∀ style bound, c.compile catalog (o.withPlaceholder style) bound =
          .ok ⟨f.columnText o ++ c.op.sql ++ style.mark (bound + 1), [v]⟩) ∨
      ∃ k : Clause, k.Balanced ∧
        ∀ style bound, c.compile catalog (o.withPlaceholder style) bound =
          .ok (k.place style bound) := by
  have hresolve : ∀ style, c.resolve catalog (o.withPlaceholder style) = c.resolve catalog o :=
    fun _ => rfl
  have hconverter : ∀ style name, (o.withPlaceholder style).converter? name = o.converter? name :=
    fun _ _ => rfl
  simp only [Comparison.compile, hresolve, hconverter]
  by_cases hcolumn : c.column = ""
  · exact .inl ⟨_, fun _ _ => if_pos hcolumn⟩
  simp only [if_neg hcolumn]
  cases c.resolve catalog o with
  | error err => exact .inl ⟨err, fun _ _ => rfl⟩
  | ok f =>
    dsimp only
    cases hconv : o.converter? f.column with
    | none =>
      rcases f.compile_outcome o c with herr | ⟨v, hv⟩
      · exact .inl herr
      · exact .inr (.inl ⟨f, v, rfl, hconv, hv⟩)
    | some convert =>
      dsimp only
      cases convert f.column c.op c.value with
      | error err => exact .inl ⟨err, fun _ _ => rfl⟩
      | ok clause =>
        rcases clause.embed_outcome f.column with ⟨err, herr⟩ | ⟨hk, hplace⟩
        · exact .inl ⟨err, fun style bound => herr style bound⟩
        · exact .inr (.inr ⟨clause, hk, fun style bound => hplace style bound⟩)

namespace Expr

/-- What a tree binds, or why it has no clause, is the same in every place. -/
theorem compileAt_outcome (e : Expr) (catalog : Catalog) (o : Options) (level : Nat) :
    (∃ err, ∀ style bound,
        compileAt catalog (o.withPlaceholder style) level bound e = .error err) ∨
      ∃ args, ∀ style bound, ∃ condition,
        compileAt catalog (o.withPlaceholder style) level bound e = .ok ⟨condition, args⟩ := by
  induction e generalizing level with
  | comparison c =>
    by_cases hlevel : depthLimit < level
    · exact .inl ⟨_, fun _ _ => if_pos hlevel⟩
    simp only [compileAt_comparison (Nat.not_lt.mp hlevel)]
    rcases c.compile_outcome catalog o with herr | ⟨f, v, -, -, hplain⟩ | ⟨k, -, hplace⟩
    · exact .inl herr
    · exact .inr ⟨[v], fun style bound => ⟨_, hplain style bound⟩⟩
    · exact .inr ⟨k.args, fun style bound => ⟨_, hplace style bound⟩⟩
  | logical l op r ihl ihr =>
    by_cases hlevel : depthLimit < level
    · exact .inl ⟨_, fun _ _ => if_pos hlevel⟩
    simp only [compileAt, if_neg hlevel]
    rcases ihl (level + 1) with ⟨err, hl⟩ | ⟨args, hl⟩
    · refine .inl ⟨err, fun style bound => ?_⟩
      rw [hl]
    rcases ihr (level + 1) with ⟨err, hr⟩ | ⟨args', hr⟩
    · refine .inl ⟨err, fun style bound => ?_⟩
      obtain ⟨left, hleft⟩ := hl style bound
      simp only [hleft, hr]
    · refine .inr ⟨args ++ args', fun style bound => ?_⟩
      obtain ⟨left, hleft⟩ := hl style bound
      obtain ⟨right, hright⟩ := hr style (bound + args.length)
      simp only [hleft, hright]
      exact ⟨_, rfl⟩

/-- If no column brings a question mark of its own, there is a question mark for every
argument, and the clause in any style is the clause with question marks, put in place. -/
theorem compileAt_eq_place {e : Expr} (hmark : ∀ c ∈ e.leaves, c.Unmarked catalog o)
    {level bound : Nat} {k : Clause}
    (h : compileAt catalog (o.withPlaceholder .sequential) level bound e = .ok k) :
    k.Balanced ∧ ∀ style,
      compileAt catalog (o.withPlaceholder style) level bound e = .ok (k.place style bound) := by
  induction e generalizing level bound k with
  | comparison c =>
    have hdepth := depth_le_of_compileAt h
    rw [depth_comparison] at hdepth
    have hlevel : level ≤ depthLimit := by omega
    simp only [compileAt_comparison hlevel] at h ⊢
    rcases c.compile_outcome catalog o with
      ⟨err, herr⟩ | ⟨f, v, hf, hconv, hplain⟩ | ⟨k', hk', hplace⟩
    · rw [herr] at h
      cases h
    · have hcolumn := hmark c (by simp [leaves_comparison]) f hf hconv
      rw [hplain] at h
      cases h
      refine ⟨Clause.balanced_plain hcolumn c.op v, fun style => ?_⟩
      rw [hplain, Placeholder.mark, Clause.place_plain style bound hcolumn]
    · rw [hplace, Clause.place_sequential] at h
      cases h
      exact ⟨hk', fun style => hplace style bound⟩
  | logical l op r ihl ihr =>
    rw [leaves_logical] at hmark
    obtain ⟨hleft, hright⟩ := List.forall_mem_append.mp hmark
    obtain ⟨hlevel, a, b, hl, hr, rfl⟩ := compileAt_logical_eq_ok_iff.mp h
    obtain ⟨ha, hplacea⟩ := ihl hleft hl
    obtain ⟨hb, hplaceb⟩ := ihr hright hr
    refine ⟨ha.join op hb, fun style => ?_⟩
    rw [ha.place_join]
    exact compileAt_logical_eq_ok_iff.mpr ⟨hlevel, _, _, hplacea style, hplaceb style, rfl⟩

end Expr

/-- **The two styles of placeholders agree.**  A tree has a clause in both styles, with the
same arguments, or the same error in both.  If no column brings a question mark of its
own, there are as many question marks as arguments, and the numbered condition has a
dollar sign and the number `k` in the place of the `k`-th of them. -/
theorem compile_styles_agree (catalog : Catalog) (o : Options) (e : Expr) :
    (∃ err, e.compile catalog (o.withPlaceholder .sequential) = .error err ∧
      e.compile catalog (o.withPlaceholder .numbered) = .error err) ∨
    ∃ k k' : Clause, e.compile catalog (o.withPlaceholder .sequential) = .ok k ∧
      e.compile catalog (o.withPlaceholder .numbered) = .ok k' ∧ k.args = k'.args ∧
      ((∀ c ∈ e.leaves, c.Unmarked catalog o) →
        k.condition.toList.count '?' = k.args.length ∧
        ∃ first rest, '?' ∉ first ∧ (∀ text ∈ rest, '?' ∉ text) ∧
          rest.length = k.args.length ∧
          k.condition.toList = Clause.weave (fun _ => ['?']) 1 first rest ∧
          k'.condition.toList =
            Clause.weave (fun n => '$' :: (toString n).toList) 1 first rest) := by
  rcases e.compileAt_outcome catalog o 1 with ⟨err, herr⟩ | ⟨args, hargs⟩
  · exact .inl ⟨err, herr .sequential 0, herr .numbered 0⟩
  obtain ⟨condition, hk⟩ := hargs .sequential 0
  obtain ⟨condition', hk'⟩ := hargs .numbered 0
  refine .inr ⟨_, _, hk, hk', rfl, fun hmark => ?_⟩
  obtain ⟨hbalanced, hplace⟩ := Expr.compileAt_eq_place hmark hk
  have hcondition' : condition'.toList = Clause.renumber .numbered 1 condition.toList := by
    have hnumbered := hplace .numbered
    rw [hk', Clause.place] at hnumbered
    injection hnumbered with hclause
    injection hclause with hclause
    rw [hclause, String.toList_ofList, Nat.zero_add]
  obtain ⟨first, rest, hfirst, hrest, hlength, hweave⟩ :=
    Clause.exists_renumber_eq_weave condition.toList
  refine ⟨hbalanced, first, rest, hfirst, hrest, hlength.trans hbalanced, ?_, ?_⟩
  · rw [← Clause.renumber_sequential 1 condition.toList, hweave]
    simp only [Placeholder.toList_mark_sequential]
  · rw [hcondition', hweave]
    simp only [Placeholder.toList_mark_numbered]

/-- A converter that binds two arguments, between two leaves of the plain kind. -/
theorem styles_agree_person :
    let e : Expr := .logical (.comparison ⟨"name", .contains, some "x"⟩) .and
      (.logical (.comparison ⟨"AGE", .gt, some "7"⟩) .or
        (.comparison ⟨"Name", .eq, some "y"⟩))
    let args : List Value := [.text "%x%", .text "7", .int 0, .text "y"]
    (∀ c ∈ e.leaves, c.Unmarked personCatalog personOptions) ∧
    e.compile personCatalog (personOptions.withPlaceholder .sequential) =
      .ok ⟨"(name like ? and (age>? or age=? or name=?))", args⟩ ∧
    e.compile personCatalog (personOptions.withPlaceholder .numbered) =
      .ok ⟨"(name like $1 and (age>$2 or age=$3 or name=$4))", args⟩ ∧
    ∃ first rest, '?' ∉ first ∧ (∀ text ∈ rest, '?' ∉ text) ∧ rest.length = 4 ∧
      "(name like ? and (age>? or age=? or name=?))".toList =
        Clause.weave (fun _ => ['?']) 1 first rest ∧
      "(name like $1 and (age>$2 or age=$3 or name=$4))".toList =
        Clause.weave (fun n => '$' :: (toString n).toList) 1 first rest := by
  intro e args
  have hmark : ∀ c ∈ e.leaves, c.Unmarked personCatalog personOptions := by
    simp only [e, Expr.leaves_logical, Expr.leaves_comparison, List.cons_append,
      List.nil_append, List.forall_mem_cons]
    refine ⟨?_, ?_, ?_, nofun⟩
    · rintro f ⟨⟩ -
      decide
    · rintro f ⟨⟩ hconv
      cases hconv
    · rintro f ⟨⟩ -
      decide
  have hseq : e.compile personCatalog (personOptions.withPlaceholder .sequential) =
      .ok ⟨"(name like ? and (age>? or age=? or name=?))", args⟩ := rfl
  have hnum : e.compile personCatalog (personOptions.withPlaceholder .numbered) =
      .ok ⟨"(name like $1 and (age>$2 or age=$3 or name=$4))", args⟩ := rfl
  refine ⟨hmark, hseq, hnum, ?_⟩
  rcases compile_styles_agree personCatalog personOptions e with
    ⟨err, herr, -⟩ | ⟨k, k', hk, hk', -, hnumber⟩
  · rw [hseq] at herr
    cases herr
  · rw [hseq] at hk
    rw [hnum] at hk'
    cases hk
    cases hk'
    exact (hnumber hmark).2

end FilterQuery
