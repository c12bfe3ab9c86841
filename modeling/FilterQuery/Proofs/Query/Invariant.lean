/-
What a reader of queries has read.

* **`State.Moves`** — the moves a reader can make, one constructor for each;
* **`State.Refuses`** — the reasons for which it refuses a token, one constructor for each;
* **`State.step_outcome`** — one step on a token is a move or a refusal, and nothing else;
* **`State.Lacks`**, **`State.lacks_of_finish`** — what is missing where a query ends;
* **`State.Reads`** — the lexemes that a state stands for: those of the enclosing groups,
  those of its own group, and those of the operand it has begun.  The depth stored with
  a tree is the depth of the tree;
* **`State.Bounded`** — neither the nesting nor the tree goes beyond the limit;
* **`State.reads_of_run`**, **`State.bounded_of_run`** — both hold after every run.

Design notes.  Only `step_outcome` and `lacks_of_finish` look into the reader.  Every property
of a run is first shown for a move, by cases on the move, and then for a run by induction on
its tokens, and every property of an error by cases on the reason for it.  A blank only sets a
flag, and no statement about runs depends on the flag.
-/
import FilterQuery.Proofs.Query.Grammar
import FilterQuery.Query.Parse

namespace FilterQuery

namespace Operand

/-- A tree with its depth. -/
def ofExpr (e : Expr) : Operand :=
  ⟨e, e.depth⟩

theorem ofComparison_eq (c : Comparison) : ofComparison c = ofExpr (.comparison c) := by
  rw [ofComparison, ofExpr, Expr.depth_comparison]

theorem join_ofExpr (l : Expr) (op : Connective) (r : Expr) :
    (ofExpr l).join op (ofExpr r) = ofExpr (.logical l op r) := by
  rw [join, ofExpr, ofExpr, ofExpr, Expr.depth_logical, Nat.add_comm]

end Operand

/-! ### Moves -/

/-- The phase after a blank: only an operand takes note of it. -/
def Phase.afterBlank : Phase → Phase
  | filled last _ => filled last true
  | phase => phase

namespace State

/-- A move on a lexeme that leads from one state to another. -/
inductive Moves : State → Lexeme → State → Prop
  | blank (s : State) : Moves s .blank { s with phase := s.phase.afterBlank }
  | column (outer : List Slot) (slot : Slot) (kind : WordKind) (text : String) :
      Moves ⟨outer, slot, .due⟩ (.word kind text) ⟨outer, slot, .column text⟩
  | operator (outer : List Slot) (slot : Slot) (name : String) (op : CompareOp) :
      Moves ⟨outer, slot, .column name⟩ (.compare op) ⟨outer, slot, .operator name op⟩
  | value (outer : List Slot) {slot : Slot} {name : String} {op : CompareOp} (kind : WordKind)
      {text : String} :
      (slot.fill (.ofComparison ⟨name, op, some text⟩)).depth ≤ depthLimit →
        Moves ⟨outer, slot, .operator name op⟩ (.word kind text)
          ⟨outer, slot, .filled (.ofComparison ⟨name, op, some text⟩) false⟩
  | opening {outer : List Slot} (slot : Slot) :
      outer.length < depthLimit →
        Moves ⟨outer, slot, .due⟩ .opening ⟨slot :: outer, .first, .due⟩
  | closing (outer : List Slot) {slot inner : Slot} {last : Operand} (afterBlank : Bool) :
      (slot.fill (inner.fill last)).depth ≤ depthLimit →
        Moves ⟨slot :: outer, inner, .filled last afterBlank⟩ .closing
          ⟨outer, slot, .filled (inner.fill last) false⟩
  | connect (outer : List Slot) (slot : Slot) (last : Operand) (afterBlank : Bool)
      (op : Connective) :
      Moves ⟨outer, slot, .filled last afterBlank⟩ (.connect op)
        ⟨outer, .right (slot.fill last) op, .due⟩

/-- A token is refused in a state with an error: it goes beyond a limit, it may not stand there,
or what must stand there is missing. -/
inductive Refuses (query : String) : State → Token → Error → Prop
  | tooManyGroups {outer : List Slot} (slot : Slot) (offset : Nat) :
      depthLimit ≤ outer.length →
      Refuses query ⟨outer, slot, .due⟩ ⟨.opening, offset⟩ (.tooDeep depthLimit query)
  | tooDeepValue (outer : List Slot) {slot : Slot} {name : String} {op : CompareOp}
      (kind : WordKind) {text : String} (offset : Nat) :
      depthLimit < (slot.fill (.ofComparison ⟨name, op, some text⟩)).depth →
      Refuses query ⟨outer, slot, .operator name op⟩ ⟨.word kind text, offset⟩
        (.tooDeep depthLimit query)
  | tooDeepGroup (outer : List Slot) {slot inner : Slot} {last : Operand} (afterBlank : Bool)
      (offset : Nat) :
      depthLimit < (slot.fill (inner.fill last)).depth →
      Refuses query ⟨slot :: outer, inner, .filled last afterBlank⟩ ⟨.closing, offset⟩
        (.tooDeep depthLimit query)
  | noGroup (slot : Slot) (offset : Nat) :
      Refuses query ⟨[], slot, .due⟩ ⟨.closing, offset⟩ (.unexpectedClosing offset query)
  | emptyGroup (outer : List Slot) (slot : Slot) (offset : Nat) :
      Refuses query ⟨slot :: outer, .first, .due⟩ ⟨.closing, offset⟩
        (.unexpectedClosing offset query)
  | unopenedGroup (slot : Slot) (last : Operand) (afterBlank : Bool) (offset : Nat) :
      Refuses query ⟨[], slot, .filled last afterBlank⟩ ⟨.closing, offset⟩
        (.unexpectedClosing offset query)
  | connective (outer : List Slot) (slot : Slot) (op : Connective) (offset : Nat) :
      Refuses query ⟨outer, slot, .due⟩ ⟨.connect op, offset⟩
        (.unexpectedConnective op offset query)
  | compare (outer : List Slot) (slot : Slot) {phase : Phase} (op : CompareOp) (offset : Nat) :
      (∀ name, phase ≠ .column name) →
      Refuses query ⟨outer, slot, phase⟩ ⟨.compare op, offset⟩
        (.unexpectedToken (.compare op) offset query)
  | openingAfterColumn (outer : List Slot) (slot : Slot) (name : String) (offset : Nat) :
      Refuses query ⟨outer, slot, .column name⟩ ⟨.opening, offset⟩
        (.unexpectedOpening offset none query)
  | openingAfterOperator (outer : List Slot) (slot : Slot) (name : String) (op : CompareOp)
      (offset : Nat) :
      Refuses query ⟨outer, slot, .operator name op⟩ ⟨.opening, offset⟩
        (.unexpectedOpening offset (some (name ++ op.symbol)) query)
  | openingAfterOperand (outer : List Slot) (slot : Slot) (last : Operand) (offset : Nat) :
      Refuses query ⟨outer, slot, .filled last false⟩ ⟨.opening, offset⟩
        (.unexpectedOpening offset (some last.tree.render) query)
  | operand (outer : List Slot) (slot : Slot) (last : Operand) (afterBlank : Bool)
      (kind : WordKind) (text : String) (offset : Nat) :
      Refuses query ⟨outer, slot, .filled last afterBlank⟩ ⟨.word kind text, offset⟩
        (.unexpectedOperand text offset query)
  | missingConnective (outer : List Slot) (slot : Slot) (last : Operand) (offset : Nat) :
      Refuses query ⟨outer, slot, .filled last true⟩ ⟨.opening, offset⟩ (.missingConnective query)
  | rightOperand (outer : List Slot) (slot : Slot) (l : Operand) (op : Connective)
      (offset : Nat) :
      Refuses query ⟨slot :: outer, .right l op, .due⟩ ⟨.closing, offset⟩
        (.missingRightOperand query)
  | compareOp (outer : List Slot) (slot : Slot) (name : String) {x : Lexeme} (offset : Nat) :
      x ≠ .blank → x ≠ .opening → (∀ op, x ≠ .compare op) →
      Refuses query ⟨outer, slot, .column name⟩ ⟨x, offset⟩ (.missingCompareOp name query)
  | value (outer : List Slot) (slot : Slot) (name : String) (op : CompareOp) {x : Lexeme}
      (offset : Nat) :
      x ≠ .blank → x ≠ .opening → (∀ op', x ≠ .compare op') → (∀ kind text, x ≠ .word kind text) →
      Refuses query ⟨outer, slot, .operator name op⟩ ⟨x, offset⟩ (.missingValue name op query)

/-- Where a query ends in a state, something is missing. -/
inductive Lacks (query : String) : State → Error → Prop
  | compareOp (outer : List Slot) (slot : Slot) (name : String) :
      Lacks query ⟨outer, slot, .column name⟩ (.missingCompareOp name query)
  | value (outer : List Slot) (slot : Slot) (name : String) (op : CompareOp) :
      Lacks query ⟨outer, slot, .operator name op⟩ (.missingValue name op query)
  | closing (outer : List Slot) (slot inner : Slot) {phase : Phase} :
      (phase = .due ∨ ∃ last afterBlank, phase = .filled last afterBlank) →
      Lacks query ⟨slot :: outer, inner, phase⟩ (.unclosedGroup query)
  | expression : Lacks query start (.missingExpression query)
  | rightOperand (l : Operand) (op : Connective) :
      Lacks query ⟨[], .right l op, .due⟩ (.missingRightOperand query)

variable {query : String} {s s' : State}

theorem fill_eq_ok_iff {a : Operand} :
    s.fill query a = .ok s' ↔
      (s.slot.fill a).depth ≤ depthLimit ∧ s' = { s with phase := .filled a false } := by
  rw [fill]
  split
  · next h => simp [Nat.not_le.mpr h]
  · next h => simp [Nat.not_lt.mp h, eq_comm]

/-- **A step is a move or a refusal.**  The end of the text is the one token that can be passed
without a move. -/
theorem step_outcome (query : String) (s : State) (t : Token) :
    (∃ s', s.step query t = .ok s' ∧ (t.lexeme ≠ .ending → s.Moves t.lexeme s')) ∨
      ∃ err, s.step query t = .error err ∧ s.Refuses query t err := by
  obtain ⟨outer, slot, phase⟩ := s
  obtain ⟨x, offset⟩ := t
  cases phase with
  | due =>
    cases x with
    | blank => exact .inl ⟨_, rfl, fun _ => .blank _⟩
    | word kind text => exact .inl ⟨_, rfl, fun _ => .column outer slot kind text⟩
    | opening =>
      by_cases hlength : depthLimit ≤ outer.length
      · exact .inr ⟨_, if_pos hlength, .tooManyGroups slot offset hlength⟩
      · exact .inl ⟨_, if_neg hlength, fun _ => .opening slot (Nat.not_le.mp hlength)⟩
    | closing =>
      cases outer with
      | nil => exact .inr ⟨_, rfl, .noGroup slot offset⟩
      | cons slot' outer =>
        cases slot with
        | first => exact .inr ⟨_, rfl, .emptyGroup outer slot' offset⟩
        | right l op => exact .inr ⟨_, rfl, .rightOperand outer slot' l op offset⟩
    | connect op => exact .inr ⟨_, rfl, .connective outer slot op offset⟩
    | compare op => exact .inr ⟨_, rfl, .compare outer slot op offset nofun⟩
    | ending => exact .inl ⟨_, rfl, fun hending => absurd rfl hending⟩
  | column name =>
    cases x with
    | blank => exact .inl ⟨_, rfl, fun _ => .blank _⟩
    | compare op => exact .inl ⟨_, rfl, fun _ => .operator outer slot name op⟩
    | opening => exact .inr ⟨_, rfl, .openingAfterColumn outer slot name offset⟩
    | _ => exact .inr ⟨_, rfl, .compareOp outer slot name offset nofun nofun nofun⟩
  | operator name op =>
    cases x with
    | blank => exact .inl ⟨_, rfl, fun _ => .blank _⟩
    | word kind text =>
      by_cases hdepth : depthLimit < (slot.fill (.ofComparison ⟨name, op, some text⟩)).depth
      · exact .inr ⟨_, if_pos hdepth, .tooDeepValue outer kind offset hdepth⟩
      · exact .inl ⟨_, if_neg hdepth, fun _ => .value outer kind (Nat.not_lt.mp hdepth)⟩
    | compare op' => exact .inr ⟨_, rfl, .compare outer slot op' offset nofun⟩
    | opening => exact .inr ⟨_, rfl, .openingAfterOperator outer slot name op offset⟩
    | _ => exact .inr ⟨_, rfl, .value outer slot name op offset nofun nofun nofun nofun⟩
  | filled last afterBlank =>
    cases x with
    | blank => exact .inl ⟨_, rfl, fun _ => .blank _⟩
    | connect op => exact .inl ⟨_, rfl, fun _ => .connect outer slot last afterBlank op⟩
    | closing =>
      cases outer with
      | nil => exact .inr ⟨_, rfl, .unopenedGroup slot last afterBlank offset⟩
      | cons slot' outer =>
        by_cases hdepth : depthLimit < (slot'.fill (slot.fill last)).depth
        · exact .inr ⟨_, if_pos hdepth, .tooDeepGroup outer afterBlank offset hdepth⟩
        · exact .inl ⟨_, if_neg hdepth, fun _ => .closing outer afterBlank (Nat.not_lt.mp hdepth)⟩
    | opening =>
      cases afterBlank with
      | true => exact .inr ⟨_, rfl, .missingConnective outer slot last offset⟩
      | false => exact .inr ⟨_, rfl, .openingAfterOperand outer slot last offset⟩
    | word kind text => exact .inr ⟨_, rfl, .operand outer slot last afterBlank kind text offset⟩
    | compare op => exact .inr ⟨_, rfl, .compare outer slot op offset nofun⟩
    | ending => exact .inl ⟨_, rfl, fun hending => absurd rfl hending⟩

theorem moves_of_step {t : Token} (ht : t.lexeme ≠ .ending) (h : s.step query t = .ok s') :
    s.Moves t.lexeme s' := by
  obtain ⟨s₁, hstep, hmoves⟩ | ⟨err, hstep, -⟩ := step_outcome query s t
  · obtain rfl := Except.ok.inj (hstep.symm.trans h)
    exact hmoves ht
  · cases hstep.symm.trans h

theorem refuses_of_step {t : Token} {err : Error} (h : s.step query t = .error err) :
    s.Refuses query t err := by
  obtain ⟨s₁, hstep, -⟩ | ⟨err', hstep, hrefuses⟩ := step_outcome query s t
  · cases hstep.symm.trans h
  · obtain rfl := Except.error.inj (hstep.symm.trans h)
    exact hrefuses

theorem lacks_of_finish {err : Error} (h : s.finish query = .error err) : s.Lacks query err := by
  obtain ⟨outer, slot, phase⟩ := s
  cases phase with
  | column name =>
    cases h
    exact .compareOp outer slot name
  | operator name op =>
    cases h
    exact .value outer slot name op
  | due =>
    cases outer with
    | cons slot' outer =>
      cases h
      exact .closing outer slot' slot (.inl rfl)
    | nil =>
      cases slot with
      | first =>
        cases h
        exact .expression
      | right l op =>
        cases h
        exact .rightOperand l op
  | filled last afterBlank =>
    cases outer with
    | cons slot' outer =>
      cases h
      exact .closing outer slot' slot (.inr ⟨last, afterBlank, rfl⟩)
    | nil => cases h

theorem step_of_moves {t : Token} (h : s.Moves t.lexeme s') : s.step query t = .ok s' := by
  obtain ⟨x, offset⟩ := t
  cases h with
  | blank => rcases s with ⟨outer, slot, _ | _ | _ | _⟩ <;> rfl
  | column => rfl
  | operator => rfl
  | value outer kind hle => exact fill_eq_ok_iff.mpr ⟨hle, rfl⟩
  | opening slot hlt => exact if_neg (Nat.not_le.mpr hlt)
  | closing outer afterBlank hle => exact fill_eq_ok_iff.mpr ⟨hle, rfl⟩
  | connect => rfl

theorem run_append (ts us : List Token) :
    s.run query (ts ++ us) =
      match s.run query ts with
      | .ok s' => s'.run query us
      | .error e => .error e := by
  induction ts generalizing s with
  | nil => rfl
  | cons t ts ih =>
    rw [List.cons_append, run, run]
    cases s.step query t with
    | ok s' => exact ih
    | error e => rfl

theorem run_append_ok {ts : List Token} (h : s.run query ts = .ok s') (us : List Token) :
    s.run query (ts ++ us) = s'.run query us := by
  rw [run_append, h]

end State

/-! ### What has been read -/

/-- The lexemes of a group before the operand of its slot. -/
inductive Slot.Reads : Slot → List Lexeme → Prop
  | first : Reads .first []
  | right {ls : List Lexeme} {l : Expr} (op : Connective) :
      Derives .group ls l → Reads (.right (.ofExpr l) op) (ls ++ [.connect op])

/-- The lexemes since a slot was opened. -/
inductive Phase.Reads : Phase → List Lexeme → Prop
  | due : Reads .due []
  | column (kind : WordKind) (name : String) : Reads (.column name) [.word kind name]
  | operator (kind : WordKind) (name : String) (op : CompareOp) :
      Reads (.operator name op) [.word kind name, .compare op]
  | filled {ls : List Lexeme} {e : Expr} (afterBlank : Bool) :
      Derives .operand ls e → Reads (.filled (.ofExpr e) afterBlank) ls

/-- The lexemes of the enclosing groups, each up to the group inside it. -/
inductive EnclosingReads : List Slot → List Lexeme → Prop
  | nil : EnclosingReads [] []
  | cons {outer : List Slot} {slot : Slot} {ls ms : List Lexeme} :
      EnclosingReads outer ls → slot.Reads ms →
        EnclosingReads (slot :: outer) (ls ++ ms ++ [.opening])

/-- The lexemes that a state stands for. -/
inductive State.Reads : State → List Lexeme → Prop
  | intro {outer : List Slot} {slot : Slot} {phase : Phase} {ks ms ns : List Lexeme} :
      EnclosingReads outer ks → slot.Reads ms → phase.Reads ns →
        Reads ⟨outer, slot, phase⟩ (ks ++ ms ++ ns)

/-- The groups that enclose a state are not too many, and what it has read of its own
group is not too deep. -/
def State.Bounded (s : State) : Prop :=
  s.outer.length ≤ depthLimit ∧
    ∀ last afterBlank, s.phase = .filled last afterBlank → (s.slot.fill last).depth ≤ depthLimit

/-- An operand completes what its group has read. -/
theorem Slot.Reads.fill {slot : Slot} {ls ms : List Lexeme} {e : Expr} (h : slot.Reads ls)
    (he : Derives .operand ms e) :
    ∃ e', slot.fill (.ofExpr e) = .ofExpr e' ∧ Derives .group (ls ++ ms) e' := by
  cases h with
  | first => exact ⟨e, rfl, .single he⟩
  | @right ks l op hl =>
    refine ⟨.logical l op e, Operand.join_ofExpr l op e, ?_⟩
    rw [List.append_assoc]
    exact .join op hl he

theorem Phase.Reads.afterBlank {phase : Phase} {ls : List Lexeme} (h : phase.Reads ls) :
    phase.afterBlank.Reads ls := by
  cases h with
  | due => exact .due
  | column kind name => exact .column kind name
  | operator kind name op => exact .operator kind name op
  | filled _ he => exact .filled true he

namespace State

variable {query : String} {s s' : State} {ls : List Lexeme}

theorem start_reads : start.Reads [] :=
  .intro .nil .first .due

theorem start_bounded : start.Bounded :=
  ⟨Nat.zero_le _, fun _ _ h => nomatch h⟩

/-- A move reads its lexeme, unless that is a blank. -/
theorem Reads.move {x : Lexeme} (h : s.Reads ls) (hm : s.Moves x s') :
    s'.Reads (ls ++ [x].filter (· ≠ .blank)) := by
  cases hm with
  | blank =>
    obtain ⟨ho, hs, hp⟩ := h
    simpa using Reads.intro ho hs hp.afterBlank
  | column outer slot kind text =>
    obtain ⟨ho, hs, hp⟩ := h
    cases hp
    simpa using Reads.intro ho hs (.column kind text)
  | operator outer slot name op =>
    obtain ⟨ho, hs, hp⟩ := h
    cases hp with
    | column kind => simpa using Reads.intro ho hs (.operator kind name op)
  | @value outer slot name op kind text _ =>
    obtain ⟨ho, hs, hp⟩ := h
    cases hp with
    | operator kind' =>
      rw [Operand.ofComparison_eq]
      simpa using Reads.intro ho hs (.filled false (.comparison kind' name op kind text))
  | opening slot _ =>
    obtain ⟨ho, hs, hp⟩ := h
    cases hp
    simpa using Reads.intro (.cons ho hs) .first .due
  | closing outer afterBlank _ =>
    -- The group is complete, and becomes an operand of the group around it.
    obtain ⟨ho, hs, hp⟩ := h
    cases ho with
    | cons ho hslot =>
      cases hp with
      | filled _ he =>
        obtain ⟨e', hfill, hgroup⟩ := hs.fill he
        rw [hfill]
        simpa using Reads.intro ho hslot (.filled false (.parens hgroup))
  | connect outer slot last afterBlank op =>
    -- All that the group has read becomes the left side of what follows.
    obtain ⟨ho, hs, hp⟩ := h
    cases hp with
    | filled _ he =>
      obtain ⟨e', hfill, hgroup⟩ := hs.fill he
      rw [hfill]
      simpa using Reads.intro ho (.right op hgroup) .due

theorem Bounded.move {x : Lexeme} (h : s.Bounded) (hm : s.Moves x s') : s'.Bounded := by
  obtain ⟨hlen, hdepth⟩ := h
  cases hm with
  | blank =>
    -- The operand is the one before the blank, and so is its bound.
    refine ⟨hlen, fun last b hp => ?_⟩
    cases hphase : s.phase with
    | filled last' b' =>
      simp only [hphase, Phase.afterBlank, Phase.filled.injEq] at hp
      exact hp.1 ▸ hdepth last' b' hphase
    | _ => simp [hphase, Phase.afterBlank] at hp
  | column => exact ⟨hlen, fun _ _ hp => nomatch hp⟩
  | operator => exact ⟨hlen, fun _ _ hp => nomatch hp⟩
  | value outer kind hle =>
    refine ⟨hlen, fun last b hp => ?_⟩
    cases hp
    exact hle
  | opening slot hlt => exact ⟨hlt, fun _ _ hp => nomatch hp⟩
  | closing outer b hle =>
    refine ⟨Nat.le_of_succ_le hlen, fun last b hp => ?_⟩
    cases hp
    exact hle
  | connect => exact ⟨hlen, fun _ _ hp => nomatch hp⟩

/-! ### Runs -/

/-- What holds before a run and is kept by every move holds after the run. -/
theorem run_induction {P : State → List Lexeme → Prop}
    (hmove : ∀ {s s' : State} {ls : List Lexeme} {x : Lexeme}, P s ls → s.Moves x s' →
      P s' (ls ++ [x].filter (· ≠ .blank)))
    {ts : List Token} {ms : List Lexeme} (hts : Spans ts ms) (ls : List Lexeme) (h : P s ls)
    (hrun : s.run query ts = .ok s') : P s' (ls ++ ms) := by
  induction ts generalizing s ls ms with
  | nil =>
    cases hrun
    rw [← hts.lexemes]
    simpa [significant] using h
  | cons t ts ih =>
    obtain ⟨ht, ms, hms, rfl⟩ := hts.of_cons
    rw [run] at hrun
    split at hrun
    · next s₁ hstep =>
      have h₁ := hmove h (moves_of_step ht hstep)
      rw [← List.append_assoc]
      exact ih hms _ h₁ hrun
    · cases hrun

/-- **After every run, the state stands for the lexemes of the run.** -/
theorem reads_of_run {ts : List Token} (hts : Spans ts ls) (hrun : start.run query ts = .ok s) :
    s.Reads ls :=
  run_induction Reads.move hts [] start_reads hrun

/-- **After every run, the state is within the limits.** -/
theorem bounded_of_run {ts : List Token} (hts : Spans ts ls)
    (hrun : start.run query ts = .ok s) : s.Bounded :=
  run_induction (P := fun s _ => s.Bounded) Bounded.move hts [] start_bounded hrun

end State

/-! ### Open groups -/

theorem Slot.Reads.count_opening {slot : Slot} {ls : List Lexeme} (h : slot.Reads ls) :
    ls.count .opening = ls.count .closing := by
  cases h with
  | first => rfl
  | right op hl => simp [hl.count_opening]

theorem Phase.Reads.count_opening {phase : Phase} {ls : List Lexeme} (h : phase.Reads ls) :
    ls.count .opening = ls.count .closing := by
  cases h with
  | filled _ he => exact he.count_opening
  | _ => rfl

theorem EnclosingReads.count_opening {outer : List Slot} {ls : List Lexeme}
    (h : EnclosingReads outer ls) : ls.count .opening = ls.count .closing + outer.length := by
  induction h with
  | nil => rfl
  | cons _ hs ih =>
    have hslot := hs.count_opening
    simp
    omega

/-- As many groups are open as enclose the state. -/
theorem State.Reads.count_opening {s : State} {ls : List Lexeme} (h : s.Reads ls) :
    ls.count .opening = ls.count .closing + s.outer.length := by
  obtain ⟨ho, hs, hp⟩ := h
  have houter := ho.count_opening
  have hslot := hs.count_opening
  have hphase := hp.count_opening
  simp only [List.count_append]
  omega

end FilterQuery
