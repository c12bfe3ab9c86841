/-
Every tree can be written as a query.

* **`Expr.print`** — a query for a tree: all words are quoted, and a right side is put
  between parentheses where it is no single comparison;
* **`Expr.lexemes`** — the lexemes of that query;
* **`spells_print`** — the query is cut into these lexemes;
* **`derives_lexemes`** — they derive the tree;
* **`parse_print`** — so the query is read as the tree.

Design notes.  A left side needs no parentheses, because connectives associate to the
left.  A text is said to spell some lexemes if they are cut off it whatever follows;
quoted words and parentheses do, while `>` does not, which an equals sign would
extend.
-/
import FilterQuery.Proofs.Query.Recognition
import FilterQuery.Proofs.Token.Quoting

namespace FilterQuery

/-- A comparison as a query, its column and its value between the given delimiters. -/
def Comparison.print (ds : Delimiter × Delimiter) (c : Comparison) : String :=
  quoteWith ds.1 c.column ++ c.op.symbol ++ quoteWith ds.2 (c.value.getD "")

namespace Expr

/-- The text of a right side: only a joined tree is put between parentheses. -/
def enclose (e : Expr) (text : String) : String :=
  match e with
  | comparison _ => text
  | logical _ _ _ => "(" ++ text ++ ")"

/-- A tree as a query.  The `i`-th comparison from the left has the delimiters `marks i`. -/
def print (marks : Nat → Delimiter × Delimiter) : Expr → String
  | comparison c => c.print (marks 0)
  | logical l op r =>
    l.print marks ++ " " ++ op.word ++ " " ++
      r.enclose (r.print fun i => marks (l.leaves.length + i))

/-- The lexemes of a right side. -/
def encloseLexemes (e : Expr) (ls : List Lexeme) : List Lexeme :=
  match e with
  | comparison _ => ls
  | logical _ _ _ => .opening :: (ls ++ [.closing])

/-- The lexemes of a tree, blanks left out. -/
def lexemes : Expr → List Lexeme
  | comparison c => [.word .quoted c.column, .compare c.op, .word .quoted (c.value.getD "")]
  | logical l op r => l.lexemes ++ .connect op :: r.encloseLexemes r.lexemes

end Expr

/-! ### The lexemes of a printed tree -/

/-- Whatever follows the text, these lexemes and blanks are cut off it. -/
def Spells (text : List Char) (ls : List Lexeme) : Prop :=
  ∀ rest, ∃ ms, Cuts (text ++ rest) ms rest ∧ ms.filter (· ≠ .blank) = ls

theorem Spells.append {text text' : List Char} {ls ls' : List Lexeme} (h : Spells text ls)
    (h' : Spells text' ls') : Spells (text ++ text') (ls ++ ls') := by
  intro rest
  obtain ⟨ms, hms, rfl⟩ := h (text' ++ rest)
  obtain ⟨ms', hms', rfl⟩ := h' rest
  refine ⟨ms ++ ms', ?_, List.filter_append ..⟩
  rw [List.append_assoc]
  exact hms.append hms'

theorem spells_quoteWith (d : Delimiter) (s : String) :
    Spells (quoteWith d s).toList [.word .quoted s] := by
  intro rest
  exact ⟨_, cuts_quoteWith d s rest, rfl⟩

theorem spells_parens {text : List Char} {ls : List Lexeme} (h : Spells text ls) :
    Spells ('(' :: (text ++ [')'])) (.opening :: (ls ++ [.closing])) := by
  have hopening : Spells ['('] [.opening] := fun rest =>
    ⟨_, Cuts.single (k := ⟨.opening, 1, rest⟩) rfl rfl, rfl⟩
  have hclosing : Spells [')'] [.closing] := fun rest =>
    ⟨_, Cuts.single (k := ⟨.closing, 1, rest⟩) rfl rfl, rfl⟩
  exact hopening.append (h.append hclosing)

/-- A comparison is cut off where no equals sign follows. -/
theorem cuts_symbol (op : CompareOp) {c : Char} (hc : c ≠ '=') (cs : List Char) :
    Cuts (op.symbol.toList ++ c :: cs) [.compare op] (c :: cs) := by
  have hshort : ∀ short long, cutCompare short long (c :: cs) = ⟨.compare short, 1, c :: cs⟩ := by
    intro short long
    rw [cutCompare.eq_2 _ _ _ fun _ h => hc (List.cons.inj h).1]
  -- Only `>` and `<` look at the character that follows them.
  cases op with
  | gt => exact Cuts.single (k := ⟨.compare .gt, 1, c :: cs⟩) (congrArg _ (hshort _ _)) rfl
  | lt => exact Cuts.single (k := ⟨.compare .lt, 1, c :: cs⟩) (congrArg _ (hshort _ _)) rfl
  | eq => exact Cuts.single (k := ⟨.compare .eq, 1, c :: cs⟩) rfl rfl
  | ne => exact Cuts.single (k := ⟨.compare .ne, 2, c :: cs⟩) rfl rfl
  | ge => exact Cuts.single (k := ⟨.compare .ge, 2, c :: cs⟩) rfl rfl
  | le => exact Cuts.single (k := ⟨.compare .le, 2, c :: cs⟩) rfl rfl
  | contains => exact Cuts.single (k := ⟨.compare .contains, 1, c :: cs⟩) rfl rfl

/-- A connective between two blanks is cut off where no further blank follows. -/
theorem cuts_connective (op : Connective) {c : Char} (hc : Text.isSpace c = false)
    (cs : List Char) :
    Cuts (' ' :: (op.word.toList ++ ' ' :: c :: cs)) [.blank, .connect op, .blank] (c :: cs) := by
  have hdrop : (c :: cs).dropWhile Text.isSpace = c :: cs :=
    List.dropWhile_cons_of_neg (by simp [hc])
  have hblank : Cuts (' ' :: c :: cs) [.blank] (c :: cs) :=
    Cuts.single (k := cutBlank ' ' (c :: cs)) rfl hdrop
  cases op with
  | and =>
    refine .cons (k := ⟨.blank, 1, 'a' :: 'n' :: 'd' :: ' ' :: c :: cs⟩) rfl ?_
    exact .cons (k := ⟨.connect .and, 3, ' ' :: c :: cs⟩) rfl hblank
  | or =>
    refine .cons (k := ⟨.blank, 1, 'o' :: 'r' :: ' ' :: c :: cs⟩) rfl ?_
    exact .cons (k := ⟨.connect .or, 2, ' ' :: c :: cs⟩) rfl hblank

theorem Delimiter.char_ne_eq (d : Delimiter) : d.char ≠ '=' := by
  rcases d.char_cases with h | h | h <;> rw [h] <;> decide

theorem Delimiter.isSpace_char (d : Delimiter) : Text.isSpace d.char = false := by
  rcases d.char_cases with h | h | h <;> rw [h] <;> rfl

theorem spells_comparison (ds : Delimiter × Delimiter) (c : Comparison) :
    Spells (c.print ds).toList (Expr.comparison c).lexemes := by
  have hvalue : Spells (c.op.symbol.toList ++ (quoteWith ds.2 (c.value.getD "")).toList)
      [.compare c.op, .word .quoted (c.value.getD "")] := by
    intro rest
    have hquote := cuts_quoteWith ds.2 (c.value.getD "") rest
    have hop := cuts_symbol c.op ds.2.char_ne_eq
      (escapeWith ds.2.char (c.value.getD "").toList ++ ds.2.char :: rest)
    simp only [quoteWith, String.toList_ofList, List.cons_append, List.append_assoc,
      List.nil_append] at hquote ⊢
    exact ⟨_, hop.append hquote, rfl⟩
  rw [Comparison.print, String.toList_append, String.toList_append, List.append_assoc]
  exact (spells_quoteWith ds.1 c.column).append hvalue

theorem spells_enclose {e : Expr} {text : String} {ls : List Lexeme} (h : Spells text.toList ls) :
    Spells (e.enclose text).toList (e.encloseLexemes ls) := by
  cases e with
  | comparison c => exact h
  | logical l op r => simpa [Expr.enclose, Expr.encloseLexemes] using spells_parens h

/-- A query for a tree begins with a delimiter, and a right side perhaps with a
parenthesis: in any case with no blank. -/
theorem print_eq_cons (marks : Nat → Delimiter × Delimiter) (e : Expr) :
    ∃ c cs, (e.print marks).toList = c :: cs ∧ Text.isSpace c = false := by
  induction e generalizing marks with
  | comparison c =>
    simp only [Expr.print, Comparison.print, quoteWith, String.toList_append,
      String.toList_ofList, List.cons_append]
    exact ⟨_, _, rfl, Delimiter.isSpace_char _⟩
  | logical l op r ihl _ =>
    obtain ⟨c, cs, hl, hc⟩ := ihl marks
    simp only [Expr.print, String.toList_append, hl, List.cons_append]
    exact ⟨_, _, rfl, hc⟩

theorem enclose_eq_cons {e : Expr} {text : String}
    (h : ∃ c cs, text.toList = c :: cs ∧ Text.isSpace c = false) :
    ∃ c cs, (e.enclose text).toList = c :: cs ∧ Text.isSpace c = false := by
  cases e with
  | comparison _ => exact h
  | logical _ _ _ => exact ⟨'(', text.toList ++ [')'], by simp [Expr.enclose], rfl⟩

/-- **The lexemes of a printed tree** are those of the tree. -/
theorem spells_print (marks : Nat → Delimiter × Delimiter) (e : Expr) :
    Spells (e.print marks).toList e.lexemes := by
  induction e generalizing marks with
  | comparison c => exact spells_comparison (marks 0) c
  | logical l op r ihl ihr =>
    have hright : Spells (' ' :: (op.word.toList ++ ' ' ::
        (r.enclose (r.print fun i => marks (l.leaves.length + i))).toList))
        (.connect op :: r.encloseLexemes r.lexemes) := by
      intro rest
      -- The right side begins with no blank, so the blank before it is cut off alone.
      obtain ⟨c, cs, htext, hc⟩ := enclose_eq_cons (e := r)
        (print_eq_cons (fun i => marks (l.leaves.length + i)) r)
      obtain ⟨ms, hms, hfilter⟩ :=
        spells_enclose (e := r) (ihr fun i => marks (l.leaves.length + i)) rest
      have hconnective := cuts_connective op hc (cs ++ rest)
      rw [htext] at hms ⊢
      simp only [List.cons_append, List.append_assoc] at hms ⊢
      exact ⟨_, hconnective.append hms, by simpa using hfilter⟩
    simpa [Expr.print, Expr.lexemes] using (ihl marks).append hright

/-! ### The tree of the lexemes -/

theorem derives_comparison {c : Comparison} (h : c.value.isSome = true) :
    Derives .operand (Expr.comparison c).lexemes (.comparison c) := by
  obtain ⟨column, op, value⟩ := c
  obtain ⟨v, rfl⟩ := Option.isSome_iff_exists.mp h
  exact .comparison .quoted column op .quoted v

/-- The lexemes of a tree derive the tree. -/
theorem derives_lexemes {e : Expr} (h : ∀ c ∈ e.leaves, c.value.isSome = true) :
    Derives .group e.lexemes e := by
  induction e with
  | comparison c => exact .single (derives_comparison (h c (by simp [Expr.leaves_comparison])))
  | logical l op r ihl ihr =>
    rw [Expr.leaves_logical] at h
    obtain ⟨hl, hr⟩ := List.forall_mem_append.mp h
    refine .join op (ihl hl) ?_
    cases r with
    | comparison c => exact derives_comparison (hr c (by simp [Expr.leaves_comparison]))
    | logical _ _ _ => exact .parens (ihr hr)

theorem NestingWithin.mono {m n : Nat} {ls : List Lexeme} (h : NestingWithin m ls) (hmn : m ≤ n) :
    NestingWithin n ls := by
  intro i hi
  have := h i hi
  omega

theorem count_lexemes (e : Expr) : e.lexemes.count .opening = e.lexemes.count .closing := by
  induction e with
  | comparison c => rfl
  | logical l op r ihl ihr =>
    have hright : (r.encloseLexemes r.lexemes).count .opening =
        (r.encloseLexemes r.lexemes).count .closing := by
      cases r with
      | comparison _ => exact ihr
      | logical _ _ _ => simp [Expr.encloseLexemes, ihr]
    simp [Expr.lexemes, ihl, hright]

/-- Parentheses are opened no deeper than the tree goes. -/
theorem nestingWithin_lexemes (e : Expr) : NestingWithin e.depth e.lexemes := by
  induction e with
  | comparison c =>
    intro i hi
    rw [Expr.lexemes, List.count_eq_zero.mpr fun h => by simpa using List.mem_of_mem_take h]
    exact Nat.zero_le _
  | logical l op r ihl ihr =>
    -- The right side lies one level below the root, which pays for its parentheses.
    have hright : NestingWithin (r.depth + 1) (r.encloseLexemes r.lexemes) := by
      cases r with
      | comparison _ => exact ihr.mono (Nat.le_succ _)
      | logical _ _ _ => exact nestingWithin_parens ihr (count_lexemes _)
    have hconnective : ∀ n, NestingWithin n [.connect op] := by
      intro n i hi
      obtain rfl : i = 0 := by simpa using hi
      simp
    rw [Expr.depth_logical]
    refine nestingWithin_append (ihl.mono (by omega)) (count_lexemes l) ?_
    exact nestingWithin_append (hconnective _) rfl (hright.mono (by omega))

/-- **Every tree can be written as a query and read back unchanged**, whatever its columns
and values are and whichever delimiters are used. -/
theorem parse_print (e : Expr) (marks : Nat → Delimiter × Delimiter)
    (hdepth : e.depth ≤ depthLimit) (hvalues : ∀ c ∈ e.leaves, c.value.isSome = true) :
    parse (e.print marks) = .ok e := by
  obtain ⟨ms, hcuts, hfilter⟩ := spells_print marks e []
  rw [List.append_nil] at hcuts
  obtain ⟨ts, htok, hsig⟩ := tokenize_of_cuts hcuts
  rw [hfilter] at hsig
  have hgroup := derives_lexemes hvalues
  have hnesting := (nestingWithin_lexemes e).mono hdepth
  rw [← hsig] at hgroup hnesting
  rcases parse_of_derives htok hgroup with hok | ⟨-, hbroken⟩
  · exact hok
  · exact absurd ⟨hnesting, hdepth⟩ hbroken

/-- An empty column, a keyword, quotes, backslashes and text beyond ASCII, with all three
delimiters, on the right side of the right side of a tree. -/
theorem parse_print_awkward :
    let e : Expr := .logical (.comparison ⟨"", .gt, some "and"⟩) .or
      (.logical (.comparison ⟨"\\x27", .contains, some "\"\\"⟩) .and
        (.comparison ⟨"é(", .le, some "\x60\\\x60"⟩))
    let marks : Nat → Delimiter × Delimiter := fun i =>
      if i = 0 then (.double, .back) else if i = 1 then (.single, .double) else (.back, .back)
    e.depth ≤ depthLimit ∧ (∀ c ∈ e.leaves, c.value.isSome = true) ∧
      parse (e.print marks) = .ok e := by
  intro e marks
  have hdepth : e.depth ≤ depthLimit := by
    simp [e, Expr.depth_logical, Expr.depth_comparison, depthLimit]
  have hvalues : ∀ c ∈ e.leaves, c.value.isSome = true := by
    simp [e, Expr.leaves_logical, Expr.leaves_comparison]
  exact ⟨hdepth, hvalues, parse_print e marks hdepth hvalues⟩

end FilterQuery
