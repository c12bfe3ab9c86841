/-
Reading a query accepts exactly the grammar.

* **`parse_derives`** — a tree that is read is derived by the lexemes of the query, and
  both limits are kept;
* **`parse_of_derives`** — lexemes that derive a tree are read as this tree, unless a
  limit is broken, and then that is the error;
* **`parse_ok_iff_derives`** — the two together.

Design notes.  The way from the grammar to the reader is an induction over the
derivation.  It starts from a state in the middle of a query, so the groups around the
phrase and the slot for it are arbitrary.
-/
import FilterQuery.Proofs.Query.Invariant
import FilterQuery.Proofs.Token.Cutting

namespace FilterQuery

/-! ### From the reader to the grammar -/

namespace State

variable {query : String} {s : State} {ls : List Lexeme}

/-- What is finished is a group, and it fits. -/
theorem Reads.finish {e : Expr} (h : s.Reads ls) (hb : s.Bounded)
    (hf : s.finish query = .ok e) : Derives .group ls e ∧ e.depth ≤ depthLimit := by
  obtain ⟨ho, hs, hp⟩ := h
  -- Only a state with an operand and without enclosing groups can be finished.
  cases hp with
  | due => cases ho <;> cases hs <;> cases hf
  | column => cases hf
  | operator => cases hf
  | filled afterBlank he =>
    cases ho with
    | cons => cases hf
    | nil =>
      obtain ⟨e', hfill, hgroup⟩ := hs.fill he
      have hdepth := hb.2 _ _ rfl
      simp only [State.finish, hfill, Except.ok.injEq] at hf hdepth
      subst hf
      exact ⟨hgroup, hdepth⟩

/-- Nowhere in a run are too many groups open. -/
theorem nestingWithin_of_run {ts : List Token} (hts : Spans ts ls)
    (hrun : start.run query ts = .ok s) : NestingWithin depthLimit ls := by
  intro i _
  -- The lexemes before the `i`-th one are those of a shorter run.
  rw [← List.take_append_drop i ls] at hts
  obtain ⟨us, vs, rfl, hus, -⟩ := hts.split_append
  rw [run_append] at hrun
  split at hrun
  · next s₁ hrun₁ =>
    have hcount := (reads_of_run hus hrun₁).count_opening
    have hlen := (bounded_of_run hus hrun₁).1
    omega
  · cases hrun

end State

theorem parse_eq_ok_iff {query : String} {e : Expr} :
    parse query = .ok e ↔
      (scan query).failure = none ∧
        ∃ s, State.start.run query (scan query).tokens = .ok s ∧ s.finish query = .ok e := by
  rw [parse]
  cases hrun : State.start.run query (scan query).tokens with
  | error => simp
  | ok s => cases hf : (scan query).failure <;> simp

/-- A tree that is read is derived by the lexemes of the query, within the limits. -/
theorem parse_derives {query : String} {e : Expr} (h : parse query = .ok e) :
    ∃ ts, tokenize query = .ok ts ∧ Derives .group (significant ts) e ∧
      NestingWithin depthLimit (significant ts) ∧ e.depth ≤ depthLimit := by
  obtain ⟨hnone, s, hrun, hfinish⟩ := parse_eq_ok_iff.mp h
  have htok := tokenize_eq_ok_iff.mpr ⟨hnone, rfl⟩
  have hspans := spans_of_tokenize htok
  have hreads := State.reads_of_run hspans hrun
  have hbounded := State.bounded_of_run hspans hrun
  obtain ⟨hgroup, hdepth⟩ := hreads.finish hbounded hfinish
  exact ⟨_, htok, hgroup, State.nestingWithin_of_run hspans hrun, hdepth⟩

/-! ### From the grammar to the reader -/

/-- Somewhere in the lexemes of a phrase, with `n` groups around it, too many are open. -/
def TooManyOpen (n : Nat) (ls : List Lexeme) : Prop :=
  ∃ i < ls.length, (ls.take i).count .closing + depthLimit < n + (ls.take i).count .opening

theorem tooManyOpen_append_left {n : Nat} {ls : List Lexeme} (h : TooManyOpen n ls)
    (ms : List Lexeme) : TooManyOpen n (ls ++ ms) := by
  obtain ⟨i, hi, hlt⟩ := h
  refine ⟨i, by simp; omega, ?_⟩
  rwa [List.take_append_of_le_length (by omega)]

theorem tooManyOpen_append_right {n m : Nat} (ls : List Lexeme) {ms : List Lexeme}
    (h : TooManyOpen m ms) (hcount : n + ls.count .opening = m + ls.count .closing) :
    TooManyOpen n (ls ++ ms) := by
  obtain ⟨i, hi, hlt⟩ := h
  refine ⟨ls.length + i, by simp; omega, ?_⟩
  rw [List.take_length_add_append]
  simp only [List.count_append]
  omega

theorem tooManyOpen_zero_iff {ls : List Lexeme} :
    TooManyOpen 0 ls ↔ ¬ NestingWithin depthLimit ls := by
  simp [TooManyOpen, NestingWithin]

theorem Slot.depth_le_fill (slot : Slot) (e : Expr) :
    e.depth ≤ (slot.fill (.ofExpr e)).depth := by
  cases slot with
  | first => exact Nat.le_refl _
  | right l op =>
    show e.depth ≤ 1 + max l.depth e.depth
    omega

namespace State

variable {query : String} {s s' : State} {ls : List Lexeme} {ts : List Token}

/-- The state after a blank. -/
def afterBlank (s : State) : State :=
  { s with phase := s.phase.afterBlank }

/-- Tokens that are not significant do nothing, or what a blank does. -/
theorem run_blanks (query : String) (s : State) (hts : Spans ts []) :
    s.run query ts = .ok s ∨ s.run query ts = .ok s.afterBlank := by
  induction ts generalizing s with
  | nil => exact .inl rfl
  | cons t ts ih =>
    obtain ⟨-, ms, hms, hnil⟩ := hts.of_cons
    obtain ⟨hblank, rfl⟩ := List.nil_eq_append_iff.mp hnil
    have hblank : t.lexeme = .blank := by simpa [List.filter_cons] using hblank
    have hstep : s.step query t = .ok s.afterBlank := step_of_moves (hblank ▸ .blank s)
    have htwice : s.afterBlank.afterBlank = s.afterBlank := by
      rcases s with ⟨outer, slot, _ | _ | _ | _⟩ <;> rfl
    rw [run, hstep]
    rcases ih s.afterBlank hms with h | h
    · exact .inr h
    · rw [htwice] at h
      exact .inr h

/-- The first significant lexeme meets the state itself, or the state after a blank. -/
theorem run_cons (query : String) (s : State) {x : Lexeme} (hts : Spans ts (x :: ls)) :
    ∃ s₀ t us, (s₀ = s ∨ s₀ = s.afterBlank) ∧ t.lexeme = x ∧ Spans us ls ∧
      s.run query ts = s₀.run query (t :: us) := by
  obtain ⟨us, t, vs, rfl, hus, ht, hvs⟩ := hts.split_cons
  rcases run_blanks query s hus with hrun | hrun
  · exact ⟨s, t, vs, .inl rfl, ht, hvs, run_append_ok hrun _⟩
  · exact ⟨s.afterBlank, t, vs, .inr rfl, ht, hvs, run_append_ok hrun _⟩

/-- A move on the first significant lexeme, whether or not a blank comes before it. -/
theorem run_move (query : String) {x : Lexeme} (hts : Spans ts (x :: ls)) (hm : s.Moves x s')
    (hm' : s.afterBlank.Moves x s') : ∃ us, Spans us ls ∧ s.run query ts = s'.run query us := by
  obtain ⟨s₀, t, us, hs₀, rfl, hus, hrun⟩ := run_cons query s hts
  refine ⟨us, hus, ?_⟩
  have hstep : s₀.step query t = .ok s' := by
    rcases hs₀ with rfl | rfl
    · exact step_of_moves hm
    · exact step_of_moves hm'
  rw [hrun, run, hstep]

/-- An error on the first significant lexeme, whether or not a blank comes before it. -/
theorem run_error {x : Lexeme} {err : Error} (hts : Spans ts (x :: ls))
    (herr : ∀ offset, s.step query ⟨x, offset⟩ = .error err)
    (herr' : ∀ offset, s.afterBlank.step query ⟨x, offset⟩ = .error err) :
    s.run query ts = .error err := by
  obtain ⟨s₀, ⟨_, offset⟩, us, hs₀, rfl, -, hrun⟩ := run_cons query s hts
  rcases hs₀ with rfl | rfl
  · rw [hrun, run, herr]
  · rw [hrun, run, herr']

/-- How a run over a phrase may end that began in a slot: the phrase has filled the slot,
or a limit is broken, and then by what the phrase itself is. -/
def PhraseEnd (query : String) (outer : List Slot) (slot : Slot) (ls : List Lexeme) (e : Expr)
    (r : Except Error State) : Prop :=
  (∃ slot' last b, r = .ok ⟨outer, slot', .filled last b⟩ ∧
    slot'.fill last = slot.fill (.ofExpr e)) ∨
  (r = .error (.tooDeep depthLimit query) ∧
    (depthLimit < (slot.fill (.ofExpr e)).depth ∨ TooManyOpen outer.length ls))

theorem run_filled (query : String) (outer : List Slot) (slot : Slot) (last : Operand) (b : Bool)
    (hts : Spans ts []) :
    ∃ b', run query ⟨outer, slot, .filled last b⟩ ts = .ok ⟨outer, slot, .filled last b'⟩ := by
  rcases run_blanks query ⟨outer, slot, .filled last b⟩ hts with hrun | hrun
  · exact ⟨b, hrun⟩
  · exact ⟨true, hrun⟩

theorem step_value_tooDeep {outer : List Slot} {slot : Slot} {name : String} {op : CompareOp}
    {text : String}
    (h : ¬ (slot.fill (.ofComparison ⟨name, op, some text⟩)).depth ≤ depthLimit)
    (kind : WordKind) (offset : Nat) :
    (State.mk outer slot (.operator name op)).step query ⟨.word kind text, offset⟩ =
      .error (.tooDeep depthLimit query) :=
  if_pos (Nat.not_le.mp h)

theorem step_closing_tooDeep {outer : List Slot} {slot inner : Slot} {last : Operand}
    (h : ¬ (slot.fill (inner.fill last)).depth ≤ depthLimit) (b : Bool) (offset : Nat) :
    (State.mk (slot :: outer) inner (.filled last b)).step query ⟨.closing, offset⟩ =
      .error (.tooDeep depthLimit query) :=
  if_pos (Nat.not_le.mp h)

theorem run_comparison {kind kind' : WordKind} {column value : String} {op : CompareOp}
    (hts : Spans ts [.word kind column, .compare op, .word kind' value]) (outer : List Slot)
    (slot : Slot) :
    PhraseEnd query outer slot [.word kind column, .compare op, .word kind' value]
      (.comparison ⟨column, op, some value⟩) (run query ⟨outer, slot, .due⟩ ts) := by
  have hcolumn := Moves.column outer slot kind column
  obtain ⟨us, hus, hrun₁⟩ := run_move query hts hcolumn hcolumn
  have hoperator := Moves.operator outer slot column op
  obtain ⟨vs, hvs, hrun₂⟩ := run_move query hus hoperator hoperator
  by_cases hle : (slot.fill (.ofComparison ⟨column, op, some value⟩)).depth ≤ depthLimit
  · have hvalue := Moves.value outer kind' hle
    obtain ⟨ws, hws, hrun₃⟩ := run_move query hvs hvalue hvalue
    obtain ⟨b, hrun₄⟩ := run_filled query outer slot _ false hws
    refine .inl ⟨slot, .ofComparison ⟨column, op, some value⟩, b, ?_, ?_⟩
    · rw [hrun₁, hrun₂, hrun₃, hrun₄]
    · rw [Operand.ofComparison_eq]
  · refine .inr ⟨?_, .inl (by rwa [← Operand.ofComparison_eq, ← Nat.not_le])⟩
    rw [hrun₁, hrun₂]
    exact run_error hvs (step_value_tooDeep hle kind') (step_value_tooDeep hle kind')

theorem run_parens {e : Expr} (hts : Spans ts (.opening :: (ls ++ [.closing])))
    (outer : List Slot) (slot : Slot)
    (ih : ∀ us, Spans us ls →
      PhraseEnd query (slot :: outer) .first ls e (run query ⟨slot :: outer, .first, .due⟩ us)) :
    PhraseEnd query outer slot (.opening :: (ls ++ [.closing])) e
      (run query ⟨outer, slot, .due⟩ ts) := by
  by_cases hlt : outer.length < depthLimit
  · have hopening := Moves.opening slot hlt
    obtain ⟨us, hus, hrun₁⟩ := run_move query hts hopening hopening
    obtain ⟨vs, ws, rfl, hvs, hws⟩ := hus.split_append
    rcases ih vs hvs with ⟨inner, last, b, hrun₂, hfill⟩ | ⟨hrun₂, hbad⟩
    · -- What stands inside fits; with what stands before it, it may still be too deep.
      rw [hrun₁, run_append_ok hrun₂]
      have hinner : inner.fill last = .ofExpr e := hfill
      by_cases hle : (slot.fill (inner.fill last)).depth ≤ depthLimit
      · obtain ⟨xs, hxs, hrun₃⟩ := run_move query hws (Moves.closing outer b hle)
          (Moves.closing outer true hle)
        obtain ⟨b', hrun₄⟩ := run_filled query outer slot (inner.fill last) false hxs
        refine .inl ⟨slot, inner.fill last, b', ?_, by rw [hinner]⟩
        rw [hrun₃, hrun₄]
      · refine .inr ⟨?_, .inl (by rwa [← hinner, ← Nat.not_le])⟩
        exact run_error hws (step_closing_tooDeep hle b) (step_closing_tooDeep hle true)
    · refine .inr ⟨by rw [hrun₁, run_append, hrun₂], ?_⟩
      rcases hbad with hdeep | hopen
      · exact .inl (Nat.lt_of_lt_of_le hdeep (slot.depth_le_fill e))
      · have hopen' := tooManyOpen_append_left hopen [.closing]
        exact .inr (tooManyOpen_append_right [.opening] hopen' (by simp))
  · -- One group too many is open before the lexeme that follows the parenthesis.
    refine .inr ⟨run_error hts (fun _ => ?_) (fun _ => ?_), .inr ⟨1, by simp, ?_⟩⟩
    · exact if_pos (Nat.not_lt.mp hlt)
    · exact if_pos (Nat.not_lt.mp hlt)
    · simp
      omega

theorem run_join {ms : List Lexeme} {l r : Expr} {op : Connective}
    (hts : Spans ts (ls ++ .connect op :: ms)) (hcount : ls.count .opening = ls.count .closing)
    (outer : List Slot)
    (ihl : ∀ us, Spans us ls →
      PhraseEnd query outer .first ls l (run query ⟨outer, .first, .due⟩ us))
    (ihr : ∀ us, Spans us ms →
      PhraseEnd query outer (.right (.ofExpr l) op) ms r
        (run query ⟨outer, .right (.ofExpr l) op, .due⟩ us)) :
    PhraseEnd query outer .first (ls ++ .connect op :: ms) (.logical l op r)
      (run query ⟨outer, .first, .due⟩ ts) := by
  have hjoin : Slot.fill (.right (.ofExpr l) op) (.ofExpr r) = .ofExpr (.logical l op r) :=
    Operand.join_ofExpr l op r
  obtain ⟨us, vs, rfl, hus, hvs⟩ := hts.split_append
  rcases ihl us hus with ⟨slot, last, b, hrun₁, hfill⟩ | ⟨hrun₁, hbad⟩
  · have hleft : slot.fill last = .ofExpr l := hfill
    obtain ⟨ws, hws, hrun₂⟩ := run_move query hvs
      (Moves.connect outer slot last b op) (Moves.connect outer slot last true op)
    -- The slot of the operand on the right holds the left side and the connective.
    rw [hleft] at hrun₂
    rw [run_append_ok hrun₁, hrun₂]
    rcases ihr ws hws with ⟨slot', last', b', hrun₃, hfill'⟩ | ⟨hrun₃, hbad⟩
    · exact .inl ⟨slot', last', b', hrun₃, hfill'.trans hjoin⟩
    · refine .inr ⟨hrun₃, ?_⟩
      rcases hbad with hdeep | hopen
      · rw [hjoin] at hdeep
        exact .inl hdeep
      · have hopen' := tooManyOpen_append_right (n := outer.length) [.connect op] hopen (by simp)
        exact .inr (tooManyOpen_append_right ls hopen' (by omega))
  · refine .inr ⟨by rw [run_append, hrun₁], ?_⟩
    rcases hbad with hdeep | hopen
    · have hdepth : l.depth < (Expr.logical l op r).depth := by
        rw [Expr.depth_logical]
        omega
      exact .inl (Nat.lt_trans hdeep hdepth)
    · exact .inr (tooManyOpen_append_left hopen _)

/-- The lexemes of a phrase are read as the phrase, wherever an operand is due; those of a
group, where nothing of the group has been read. -/
theorem run_of_derives (query : String) {p : Phrase} {e : Expr} (h : Derives p ls e)
    (hts : Spans ts ls) (outer : List Slot) (slot : Slot) (hslot : p = .group → slot = .first) :
    PhraseEnd query outer slot ls e (run query ⟨outer, slot, .due⟩ ts) := by
  induction h generalizing ts outer slot with
  | comparison => exact run_comparison hts outer slot
  | parens _ ih =>
    refine run_parens hts outer slot fun us hus => ?_
    exact ih hus (slot :: outer) .first fun _ => rfl
  | single _ ih => exact ih hts outer slot nofun
  | @join _ _ l r op hl _ ihl ihr =>
    -- The left side is a group, so it starts where the whole group starts.
    obtain rfl := hslot rfl
    refine run_join hts hl.count_opening outer (fun us hus => ?_) (fun us hus => ?_)
    · exact ihl hus outer .first fun _ => rfl
    · exact ihr hus outer (.right (.ofExpr l) op) nofun

end State

/-- **Lexemes that derive a tree are read as this tree**, unless the tree is too deep or too
many groups are open, and then that is the error. -/
theorem parse_of_derives {query : String} {ts : List Token} {e : Expr}
    (htok : tokenize query = .ok ts) (h : Derives .group (significant ts) e) :
    parse query = .ok e ∨
      (parse query = .error (.tooDeep depthLimit query) ∧
        ¬ (NestingWithin depthLimit (significant ts) ∧ e.depth ≤ depthLimit)) := by
  obtain ⟨hnone, -⟩ := tokenize_eq_ok_iff.mp htok
  have hend := State.run_of_derives query h (spans_of_tokenize htok) [] .first fun _ => rfl
  rcases hend with ⟨slot, last, b, hrun, hfill⟩ | ⟨hrun, hbad⟩
  · refine .inl (parse_eq_ok_iff.mpr ⟨hnone, _, hrun, ?_⟩)
    show Except.ok (slot.fill last).tree = .ok e
    rw [hfill]
    rfl
  · refine .inr ⟨?_, ?_⟩
    · rw [parse, show State.start.run query _ = _ from hrun]
    · rintro ⟨hnesting, hdepth⟩
      rcases hbad with hdeep | hopen
      · exact Nat.not_lt.mpr hdepth hdeep
      · exact tooManyOpen_zero_iff.mp hopen hnesting

/-- **Reading accepts exactly the grammar.**  A query is read as a tree if and only if it
can be cut into tokens, its significant lexemes derive the tree, and neither the nesting
of groups nor the depth of the tree goes beyond the limit.  Where only a limit is
broken, that is the error. -/
theorem parse_ok_iff_derives (query : String) :
    (∀ e, parse query = .ok e ↔
      ∃ ts, tokenize query = .ok ts ∧ Derives .group (significant ts) e ∧
        NestingWithin depthLimit (significant ts) ∧ e.depth ≤ depthLimit) ∧
    (∀ ts e, tokenize query = .ok ts → Derives .group (significant ts) e →
      ¬ (NestingWithin depthLimit (significant ts) ∧ e.depth ≤ depthLimit) →
        parse query = .error (.tooDeep depthLimit query)) := by
  constructor
  · intro e
    constructor
    · exact parse_derives
    · rintro ⟨ts, htok, hgroup, hlimits⟩
      rcases parse_of_derives htok hgroup with hok | ⟨-, hbroken⟩
      · exact hok
      · exact absurd hlimits hbroken
  · intro ts e htok hgroup hbroken
    rcases parse_of_derives htok hgroup with hok | ⟨herr, -⟩
    · -- What is read keeps the limits, so this case does not arise.
      obtain ⟨us, hus, -, hlimits⟩ := parse_derives hok
      cases htok.symm.trans hus
      exact absurd hlimits hbroken
    · exact herr

/-- The comparison `a=b` inside `n` groups. -/
def nestedText (n : Nat) : List Char :=
  List.replicate n '(' ++ ('a' :: '=' :: 'b' :: List.replicate n ')')

/-- The lexemes of `a=b` inside `n` groups. -/
def nestedLexemes (n : Nat) : List Lexeme :=
  List.replicate n .opening ++
    (.word .symbol "a" :: .compare .eq :: .word .symbol "b" :: List.replicate n .closing)

theorem cuts_nestedText (n : Nat) : Cuts (nestedText n) (nestedLexemes n) [] := by
  have hopen : ∀ (n : Nat) (cs : List Char),
      Cuts (List.replicate n '(' ++ cs) (List.replicate n .opening) cs := by
    intro n cs
    induction n with
    | zero => exact .nil cs
    | succ n ih => exact .cons (k := ⟨.opening, 1, _⟩) rfl ih
  have hclose : ∀ n : Nat, Cuts (List.replicate n ')') (List.replicate n .closing) [] := by
    intro n
    induction n with
    | zero => exact .nil []
    | succ n ih => exact .cons (k := ⟨.closing, 1, _⟩) rfl ih
  have hvalue : Cuts ('b' :: List.replicate n ')') [.word .symbol "b"] (List.replicate n ')') := by
    cases n with
    | zero => exact .cons (k := ⟨.word .symbol "b", 1, []⟩) rfl (.nil [])
    | succ n => exact .cons (k := ⟨.word .symbol "b", 1, List.replicate (n + 1) ')'⟩) rfl (.nil _)
  refine (hopen n _).append (.cons (k := ⟨.word .symbol "a", 1, _⟩) rfl ?_)
  exact .cons (k := ⟨.compare .eq, 1, _⟩) rfl (hvalue.append (hclose n))

theorem derives_nestedLexemes (n : Nat) :
    Derives .group (nestedLexemes n) (.comparison ⟨"a", .eq, some "b"⟩) := by
  induction n with
  | zero => exact .single (.comparison .symbol "a" .eq .symbol "b")
  | succ n ih =>
    have hsplit : nestedLexemes (n + 1) = .opening :: (nestedLexemes n ++ [.closing]) := by
      rw [nestedLexemes, List.replicate_succ, List.replicate_succ']
      simp [nestedLexemes]
    rw [hsplit]
    exact .single (.parens ih)

/-- With one group more than the limit around it, a comparison is in the grammar and is
refused for its nesting. -/
theorem parse_nestedText_tooDeep :
    ∃ ts, tokenize (String.ofList (nestedText (depthLimit + 1))) = .ok ts ∧
      Derives .group (significant ts) (.comparison ⟨"a", .eq, some "b"⟩) ∧
      ¬ NestingWithin depthLimit (significant ts) ∧
      parse (String.ofList (nestedText (depthLimit + 1))) =
        .error (.tooDeep depthLimit (String.ofList (nestedText (depthLimit + 1)))) := by
  have hcuts := cuts_nestedText (depthLimit + 1)
  rw [← String.toList_ofList (l := nestedText (depthLimit + 1))] at hcuts
  obtain ⟨ts, htok, hsig⟩ := tokenize_of_cuts hcuts
  have hlexemes : significant ts = nestedLexemes (depthLimit + 1) := by
    rw [hsig, List.filter_eq_self]
    intro x hx
    simp only [nestedLexemes, List.mem_append, List.mem_cons, List.mem_replicate] at hx
    rcases hx with ⟨-, rfl⟩ | rfl | rfl | rfl | ⟨-, rfl⟩ <;> rfl
  have hgroup := derives_nestedLexemes (depthLimit + 1)
  have hnesting : ¬ NestingWithin depthLimit (nestedLexemes (depthLimit + 1)) := by
    intro h
    have hinside := h (depthLimit + 1) (by simp [nestedLexemes])
    have hclosing : (List.replicate (depthLimit + 1) Lexeme.opening).count .closing = 0 :=
      List.count_eq_zero.mpr fun hmem => nomatch (List.mem_replicate.mp hmem).2
    rw [nestedLexemes, List.take_left' List.length_replicate, List.count_replicate_self,
      hclosing] at hinside
    omega
  rw [← hlexemes] at hgroup hnesting
  refine ⟨ts, htok, hgroup, hnesting, ?_⟩
  exact (parse_ok_iff_derives _).2 ts _ htok hgroup fun hlimits => hnesting hlimits.1

end FilterQuery
