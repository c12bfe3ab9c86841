/-
How a condition is read.

A condition is a text in the language of the database.  Its atoms are joined by `and` and
`or`, of which `and` binds tighter, and parentheses keep together what they enclose.  An
atom is whatever words stand between these.

* **`Formula`** — what a condition says, and its truth value if its atoms have one;
* **`symbols`** — the text as a list of atoms, connectives and parentheses;
* **`Reads`** — the grammar: the symbols of a condition, and the formula they stand for;
* **`Reads.unique`** — a condition can be read in one way only.

Design notes.  Both connectives associate to the left, as usual, so the grammar has two
rules that call themselves on the left.  That no condition can be read in two ways is
shown by a reader that goes through the symbols once and keeps a stack of the groups
that are open (`Place.read?`): whatever the grammar derives, this reader finds.
-/
import FilterQuery.Proofs.Token.Piece

namespace FilterQuery

/-- The truth value of a join. -/
def Connective.apply : Connective → Bool → Bool → Bool
  | and, a, b => a && b
  | or, a, b => a || b

namespace Condition

/-! ### Formulas -/

/-- What a condition says: atoms, joined by connectives. -/
inductive Formula
  | atom (text : String)
  | join (left : Formula) (op : Connective) (right : Formula)
deriving DecidableEq

namespace Formula

/-- The atoms from left to right. -/
def atoms : Formula → List String
  | atom text => [text]
  | join l _ r => l.atoms ++ r.atoms

/-- The number of atoms. -/
def size (φ : Formula) : Nat :=
  φ.atoms.length

/-- The truth value of a formula whose `n`-th atom from the left has the truth value `v n`. -/
def eval : Formula → (Nat → Bool) → Bool
  | atom _, v => v 0
  | join l op r, v => op.apply (l.eval v) (r.eval fun n => v (l.size + n))

theorem size_join (l : Formula) (op : Connective) (r : Formula) :
    (join l op r).size = l.size + r.size := by
  rw [size, atoms, List.length_append]
  rfl

end Formula

/-! ### Symbols -/

/-- The parts of a condition: parentheses, connectives, and the texts between them. -/
inductive Symbol
  | opening
  | closing
  | connect (op : Connective)
  | text (w : List Char)
deriving DecidableEq

/-- A character of a word. -/
def isPlain (c : Char) : Bool :=
  !(Text.isWhite c || c == '(' || c == ')')

/-- The words for connectives. -/
def keywords : List (List Char) :=
  [['a', 'n', 'd'], ['o', 'r']]

/-- Connectives are written in any letter case. -/
def Symbol.ofWord (w : List Char) : Symbol :=
  let folded := w.map Char.toLower
  if folded = ['a', 'n', 'd'] then .connect .and
  else if folded = ['o', 'r'] then .connect .or
  else .text w

/-- A symbol before others.  Words beside each other are one text, with a blank between
them. -/
def Symbol.before : Symbol → List Symbol → List Symbol
  | .text w, .text w' :: ss => .text (w ++ ' ' :: w') :: ss
  | s, ss => s :: ss

/-- The symbols of a text: a word goes on up to white space or a parenthesis. -/
def symbols (text : List Char) : List Symbol :=
  match text with
  | [] => []
  | c :: cs =>
    if c = '(' then .opening :: symbols cs
    else if c = ')' then .closing :: symbols cs
    else if Text.isWhite c then symbols cs
    else (Symbol.ofWord (c :: cs.takeWhile isPlain)).before (symbols (cs.dropWhile isPlain))
termination_by text.length
decreasing_by
  · simp
  · simp
  · simp
  · exact Nat.lt_succ_of_le (List.dropWhile_suffix isPlain).length_le

/-! ### The grammar -/

/-- How tight a part of a condition holds together. -/
inductive Level
  | disjunction
  | conjunction
  | operand

/-- The grammar of conditions. -/
inductive Reads : Level → List Symbol → Formula → Prop
  | atom (w : List Char) : Reads .operand [.text w] (.atom (String.ofList w))
  | group {ss : List Symbol} {φ : Formula} : Reads .disjunction ss φ →
      Reads .operand (.opening :: (ss ++ [.closing])) φ
  | operand {ss : List Symbol} {φ : Formula} : Reads .operand ss φ → Reads .conjunction ss φ
  | and {ss ts : List Symbol} {φ ψ : Formula} : Reads .conjunction ss φ → Reads .operand ts ψ →
      Reads .conjunction (ss ++ .connect .and :: ts) (.join φ .and ψ)
  | conjunction {ss : List Symbol} {φ : Formula} : Reads .conjunction ss φ →
      Reads .disjunction ss φ
  | or {ss ts : List Symbol} {φ ψ : Formula} : Reads .disjunction ss φ →
      Reads .conjunction ts ψ → Reads .disjunction (ss ++ .connect .or :: ts) (.join φ .or ψ)

/-- A text is a condition that says what the formula says. -/
def Says (text : String) (φ : Formula) : Prop :=
  Reads .disjunction (symbols text.toList) φ

/-! ### One way to read a condition -/

/-- A formula behind what stands to its left, if anything does. -/
def joinTo : Option Formula → Connective → Formula → Formula
  | none, _, φ => φ
  | some ψ, op, φ => .join ψ op φ

/-- A place inside a group: what stands to the left of the last `or`, and what stands
between this and the last `and`.  At a place that is filled, an operand was the last
thing that was read. -/
inductive Place
  | vacant (sum product : Option Formula)
  | filled (sum : Option Formula) (product : Formula)

/-- The formula of the symbols from a place on, with the groups that are still open. -/
def Place.read? : Place → List (Option Formula × Option Formula) → List Symbol → Option Formula
  | filled sum product, [], [] => some (joinTo sum .or product)
  | filled sum product, stack, .connect .and :: ss => read? (vacant sum (some product)) stack ss
  | filled sum product, stack, .connect .or :: ss =>
    read? (vacant (some (joinTo sum .or product)) none) stack ss
  | filled sum product, (sum', product') :: stack, .closing :: ss =>
    read? (filled sum' (joinTo product' .and (joinTo sum .or product))) stack ss
  | vacant sum product, stack, .opening :: ss =>
    read? (vacant none none) ((sum, product) :: stack) ss
  | vacant sum product, stack, .text w :: ss =>
    read? (filled sum (joinTo product .and (.atom (String.ofList w)))) stack ss
  | _, _, _ => none

/-- What the reader makes of some symbols of a level, whatever follows them. -/
def Found (level : Level) (ss : List Symbol) (φ : Formula) : Prop :=
  ∀ stack rest,
    match level with
    | .operand => ∀ sum product, Place.read? (.vacant sum product) stack (ss ++ rest) =
        Place.read? (.filled sum (joinTo product .and φ)) stack rest
    | .conjunction => ∀ sum, Place.read? (.vacant sum none) stack (ss ++ rest) =
        Place.read? (.filled sum φ) stack rest
    | .disjunction => ∃ sum product, joinTo sum .or product = φ ∧
        Place.read? (.vacant none none) stack (ss ++ rest) =
          Place.read? (.filled sum product) stack rest

/-- **Whatever the grammar derives, the reader finds.** -/
theorem Reads.found {level : Level} {ss : List Symbol} {φ : Formula} (h : Reads level ss φ) :
    Found level ss φ := by
  induction h with
  | atom w =>
    intro stack rest sum product
    rw [List.singleton_append, Place.read?]
  | @group ss φ _ ih =>
    intro stack rest sum product
    obtain ⟨sum', product', rfl, hread⟩ := ih ((sum, product) :: stack) (.closing :: rest)
    rw [Place.read?] at hread
    show Place.read? _ stack (.opening :: (ss ++ [.closing] ++ rest)) = _
    rw [Place.read?, List.append_assoc]
    exact hread
  | operand _ ih =>
    intro stack rest sum
    exact ih stack rest sum none
  | @and ss ts φ ψ _ _ ihl ihr =>
    intro stack rest sum
    have hleft := ihl stack (.connect .and :: (ts ++ rest)) sum
    have hright := ihr stack rest sum (some φ)
    rw [List.append_assoc, List.cons_append, hleft, Place.read?, hright]
    rfl
  | @conjunction ss φ _ ih =>
    intro stack rest
    exact ⟨none, φ, rfl, ih stack rest none⟩
  | @or ss ts φ ψ _ _ ihl ihr =>
    intro stack rest
    obtain ⟨sum, product, hφ, hleft⟩ := ihl stack (.connect .or :: (ts ++ rest))
    have hright := ihr stack rest (some φ)
    refine ⟨some φ, ψ, rfl, ?_⟩
    rw [List.append_assoc, List.cons_append, hleft, Place.read?, hφ, hright]

/-- **A condition can be read in one way only.** -/
theorem Reads.unique {ss : List Symbol} {φ ψ : Formula} (hφ : Reads .disjunction ss φ)
    (hψ : Reads .disjunction ss ψ) : φ = ψ := by
  have hread : ∀ χ, Reads .disjunction ss χ → Place.read? (.vacant none none) [] ss = some χ := by
    intro χ hχ
    obtain ⟨sum, product, hsum, hread⟩ := hχ.found [] []
    rw [List.append_nil] at hread
    rw [hread, Place.read?, hsum]
  have heq := (hread φ hφ).symm.trans (hread ψ hψ)
  exact Option.some.inj heq

/-! ### Words -/

/-- A word that is no connective. -/
structure IsWord (w : List Char) : Prop where
  ne_nil : w ≠ []
  plain : w.all isPlain = true
  other : w.map Char.toLower ∉ keywords

theorem ofWord_eq_text {w : List Char} (h : w.map Char.toLower ∉ keywords) :
    Symbol.ofWord w = .text w := by
  simp only [keywords, List.mem_cons, List.not_mem_nil, or_false, not_or] at h
  rw [Symbol.ofWord]
  simp only [h.1, h.2, if_false]

theorem exists_ofWord_eq_connect {w : List Char} (h : w.map Char.toLower ∈ keywords) :
    ∃ op, Symbol.ofWord w = .connect op := by
  simp only [keywords, List.mem_cons, List.not_mem_nil, or_false] at h
  rw [Symbol.ofWord]
  rcases h with h | h
  · exact ⟨.and, by simp only [h, if_true]⟩
  · exact ⟨.or, by simp only [h]; rfl⟩

theorem ofWord_connective (op : Connective) : Symbol.ofWord op.word.toList = .connect op := by
  cases op with
  | and => decide
  | or => decide

/-- A word with a character that occurs in no connective is none. -/
theorem notMem_keywords {w : List Char} {c : Char} (hc : c ∈ w)
    (hlower : c.toLower ∉ keywords.flatten) : w.map Char.toLower ∉ keywords := by
  intro hw
  exact hlower (List.mem_flatten_of_mem hw (List.mem_map_of_mem hc))

theorem isPlain_eq_true_iff {c : Char} :
    isPlain c = true ↔ Text.isWhite c = false ∧ c ≠ '(' ∧ c ≠ ')' := by
  simp [isPlain, and_assoc]

theorem isPlain_of_isDigit {c : Char} (h : c.isDigit = true) : isPlain c = true := by
  refine isPlain_eq_true_iff.mpr ⟨Text.isWhite_of_isDigit h, ?_, ?_⟩
  · rintro rfl
    cases h
  · rintro rfl
    cases h

/-! ### Symbols of joined texts -/

theorem symbols_opening (cs : List Char) : symbols ('(' :: cs) = .opening :: symbols cs := by
  rw [symbols, if_pos rfl]

theorem symbols_closing (cs : List Char) : symbols (')' :: cs) = .closing :: symbols cs := by
  rw [symbols, if_neg (by decide), if_pos rfl]

theorem symbols_white {c : Char} (h : Text.isWhite c = true) (cs : List Char) :
    symbols (c :: cs) = symbols cs := by
  have hopening : c ≠ '(' := by
    rintro rfl
    exact absurd h (by decide)
  have hclosing : c ≠ ')' := by
    rintro rfl
    exact absurd h (by decide)
  rw [symbols, if_neg hopening, if_neg hclosing, if_pos h]

/-- A word that ends where it cannot go on is a symbol. -/
theorem symbols_word {w rest : List Char} (hne : w ≠ []) (hw : w.all isPlain = true)
    (hrest : Stops isPlain rest) :
    symbols (w ++ rest) = (Symbol.ofWord w).before (symbols rest) := by
  cases w with
  | nil => exact absurd rfl hne
  | cons c cs =>
    obtain ⟨hc, hcs⟩ := List.forall_mem_cons.mp (List.all_eq_true.mp hw)
    obtain ⟨hwhite, hopening, hclosing⟩ := isPlain_eq_true_iff.mp hc
    obtain ⟨htake, hdrop⟩ := takeWhile_append_of_stops hcs hrest
    rw [List.cons_append, symbols, if_neg hopening, if_neg hclosing,
      if_neg (Bool.eq_false_iff.mp hwhite), htake, hdrop]

/-- A word that is no connective is a text. -/
theorem IsWord.symbols {w : List Char} (h : IsWord w) : Condition.symbols w = [.text w] := by
  have hword := symbols_word h.ne_nil h.plain (stops_nil isPlain)
  rw [List.append_nil, ofWord_eq_text h.other] at hword
  rw [hword, Condition.symbols]
  rfl

theorem IsWord.symbols_blank {w : List Char} (h : IsWord w) (cs : List Char) :
    Condition.symbols (w ++ ' ' :: cs) = (Symbol.text w).before (Condition.symbols cs) := by
  have hstops : Stops isPlain (' ' :: cs) := by
    rintro c ⟨⟩
    decide
  rw [symbols_word h.ne_nil h.plain hstops, ofWord_eq_text h.other, symbols_white (by decide)]

/-- The first word of a text and what follows, as the symbols are cut. -/
theorem exists_word {c : Char} (hopening : c ≠ '(') (hclosing : c ≠ ')')
    (hwhite : ¬ Text.isWhite c = true) (cs : List Char) :
    (c :: cs.takeWhile isPlain).all isPlain = true ∧ Stops isPlain (cs.dropWhile isPlain) ∧
      c :: cs = (c :: cs.takeWhile isPlain) ++ cs.dropWhile isPlain := by
  refine ⟨?_, stops_dropWhile isPlain cs, ?_⟩
  · rw [List.all_cons, List.all_takeWhile, Bool.and_true]
    exact isPlain_eq_true_iff.mpr ⟨Bool.eq_false_iff.mpr hwhite, hopening, hclosing⟩
  · rw [List.cons_append, List.takeWhile_append_dropWhile]

theorem Symbol.before_append (s : Symbol) (ss : List Symbol) {ts : List Symbol}
    (hts : ∀ w, ts.head? ≠ some (.text w)) : s.before ss ++ ts = s.before (ss ++ ts) := by
  cases ss with
  | nil =>
    cases ts with
    | nil => rw [List.append_nil, List.append_nil]
    | cons t ts =>
      cases t with
      | text w => exact absurd rfl (hts w)
      | _ => cases s <;> rfl
  | cons t ss => cases s <;> cases t <;> rfl

/-- Two texts have the symbols of both, if the second goes on neither a word nor a text. -/
theorem symbols_append (cs : List Char) {rest : List Char} (hrest : Stops isPlain rest)
    (hhead : ∀ w, (symbols rest).head? ≠ some (.text w)) :
    symbols (cs ++ rest) = symbols cs ++ symbols rest := by
  fun_induction symbols cs with
  | case1 => rfl
  | case2 cs ih => rw [List.cons_append, symbols_opening, ih, List.cons_append]
  | case3 cs h ih => rw [List.cons_append, symbols_closing, ih, List.cons_append]
  | case4 c cs h h' hwhite ih => rw [List.cons_append, symbols_white hwhite, ih]
  | case5 c cs hopening hclosing hwhite ih =>
    obtain ⟨hplain, hdrop, htext⟩ := exists_word hopening hclosing hwhite cs
    have hstops : Stops isPlain (cs.dropWhile isPlain ++ rest) := by
      cases hcs : cs.dropWhile isPlain with
      | nil => exact hrest
      | cons d ds =>
        rw [hcs] at hdrop
        exact hdrop
    rw [htext, List.append_assoc, symbols_word (List.cons_ne_nil _ _) hplain hstops, ih,
      Symbol.before_append _ _ hhead]

/-! ### Comparisons -/

/-- A column, an operator and a placeholder are an atom. -/
theorem reads_comparison {column mark : List Char} (hcolumn : IsWord column) (op : CompareOp)
    (hmark : IsWord mark) :
    Reads .operand (symbols (column ++ op.sql.toList ++ mark))
      (.atom (String.ofList (column ++ op.sql.toList ++ mark))) := by
  have hsymbols : symbols (column ++ op.sql.toList ++ mark) =
      [.text (column ++ op.sql.toList ++ mark)] := by
    by_cases hop : op = .contains
    · subst hop
      have hlike : IsWord ['l', 'i', 'k', 'e'] := ⟨by decide, by decide, by decide⟩
      have htext : column ++ CompareOp.contains.sql.toList ++ mark =
          column ++ ' ' :: (['l', 'i', 'k', 'e'] ++ ' ' :: mark) := by
        simp [CompareOp.sql]
      rw [htext, hcolumn.symbols_blank, hlike.symbols_blank, hmark.symbols]
      rfl
    · have hplain : op.sql.toList.all isPlain = true := by
        cases op with
        | contains => exact absurd rfl hop
        | _ => decide
      have hother : (op.sql.toList.any fun d => d.toLower ∉ keywords.flatten) = true := by
        cases op <;> decide
      -- The operator is part of the word, and keeps it from being a connective.
      obtain ⟨d, hd, hlower⟩ := List.any_eq_true.mp hother
      refine IsWord.symbols ⟨?_, ?_, notMem_keywords (by simp [hd]) (of_decide_eq_true hlower)⟩
      · simp [hcolumn.ne_nil]
      · rw [List.all_append, List.all_append, hcolumn.plain, hplain, hmark.plain]
        rfl
  rw [hsymbols]
  exact .atom _

end Condition

end FilterQuery
