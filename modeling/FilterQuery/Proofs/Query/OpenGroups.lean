/-
What the accumulators of the open groups hold, and what follows for the errors of a query.

* **`Accumulator.Sound`** — the parts of an accumulator are in step: they are filled in order,
  and a depth is the depth of the tree beside it;
* **`openGroups`** — the lexemes of the groups that are still open, and **`comparisonsIn`**, the
  comparisons that are written in them;
* **`GroupReader.Advances`** — the ways in which a token is accepted;
* **`GroupReader.Holds`** — every accumulator is sound, and has the comparisons that are written
  in its group;
* **`GroupReader.Holds.advance`**, **`GroupReader.Holds.run`** — this is kept by a token, and so
  by any tokens one after the other;
* **`State.error_of_step`**, **`State.error_of_finish`** — for what a query is refused, and for
  what it is not;
* **`accumulators_hold_open_groups`** — all of it, for every query.

Design notes.  What is written in a group goes on with what comes after it.  That the comparisons
of the group are not touched by this is part of what is kept.  A reader is looked at before its
depth is checked, so that the readers that are refused as too deep are among those spoken of.
-/
import FilterQuery.Proofs.Query.Accumulator
import FilterQuery.Proofs.Query.ViablePrefix

namespace FilterQuery

/-! ### Accumulators -/

namespace Accumulator

/-- The parts of the accumulator are in step. -/
structure Sound (a : Accumulator) : Prop where
  right : a.right.isSome = true → a.left.isSome = true ∧ a.op.isSome = true
  op : a.op.isSome = true → a.left.isSome = true
  leftDepth : a.leftDepth = a.left.elim 0 Expr.depth
  rightDepth : a.rightDepth = a.right.elim 0 Expr.depth

/-- The comparisons of the left operand, then those of the right one. -/
def comparisons (a : Accumulator) : List Comparison :=
  a.left.elim [] Expr.leaves ++ a.right.elim [] Expr.leaves

variable {a : Accumulator}

theorem sound_empty : empty.Sound :=
  ⟨fun h => absurd h Bool.false_ne_true, fun h => absurd h Bool.false_ne_true, rfl, rfl⟩

/-- Sound accumulators are filled up to one of four points. -/
theorem Sound.eq_of (h : a.Sound) :
    a = empty ∨ (∃ l, a = ⟨some l, none, none, l.depth, 0⟩) ∨
      (∃ l op, a = ⟨some l, some op, none, l.depth, 0⟩) ∨
      ∃ l op r, a = ⟨some l, some op, some r, l.depth, r.depth⟩ := by
  obtain ⟨hright, hop, hleftDepth, hrightDepth⟩ := h
  rcases a with ⟨_ | l, _ | op, _ | r, leftDepth, rightDepth⟩ <;> simp_all [empty]

/-- **The tree of an accumulator has its depth and its comparisons**, if there is one. -/
theorem Sound.of_root (h : a.Sound) {query : String} {e : Expr} (hroot : a.root query = .ok e) :
    a.depth = e.depth ∧ a.comparisons = e.leaves := by
  obtain rfl | ⟨l, rfl⟩ | ⟨l, op, rfl⟩ | ⟨l, op, r, rfl⟩ := h.eq_of
  · simp [root, empty] at hroot
  · obtain rfl := Except.ok.inj hroot
    exact ⟨rfl, List.append_nil _⟩
  · simp [root] at hroot
  · obtain rfl := Except.ok.inj hroot
    rw [Expr.depth_logical, Expr.leaves_logical, Nat.add_comm]
    exact ⟨rfl, rfl⟩

theorem Sound.pushOperand (h : a.Sound) (hexpects : a.expectsOperand = true) (e : Expr) :
    (a.pushOperand (.ofExpr e)).Sound ∧
      (a.pushOperand (.ofExpr e)).comparisons = a.comparisons ++ e.leaves := by
  obtain rfl | ⟨l, rfl⟩ | ⟨l, op, rfl⟩ | ⟨l, op, r, rfl⟩ := h.eq_of
  · exact ⟨⟨by simp [Accumulator.pushOperand, empty], by simp [Accumulator.pushOperand, empty],
      rfl, rfl⟩, by simp [comparisons, Accumulator.pushOperand, empty, Operand.ofExpr]⟩
  · simp [expectsOperand] at hexpects
  · exact ⟨⟨by simp [Accumulator.pushOperand], by simp [Accumulator.pushOperand], rfl, rfl⟩,
      by simp [comparisons, Accumulator.pushOperand, Operand.ofExpr]⟩
  · simp [expectsOperand] at hexpects

theorem Sound.pushConnective (h : a.Sound) (haccepts : a.acceptsConnective = true)
    (op : Connective) :
    (a.pushConnective op).Sound ∧ (a.pushConnective op).comparisons = a.comparisons := by
  obtain rfl | ⟨l, rfl⟩ | ⟨l, op', rfl⟩ | ⟨l, op', r, rfl⟩ := h.eq_of
  · simp [acceptsConnective, empty] at haccepts
  · exact ⟨⟨by simp [Accumulator.pushConnective], by simp [Accumulator.pushConnective], rfl, rfl⟩,
      rfl⟩
  · simp [acceptsConnective] at haccepts
  · -- Left, connective and right become the new left side, one level deeper.
    refine ⟨⟨by simp [Accumulator.pushConnective], by simp [Accumulator.pushConnective], ?_, rfl⟩,
      ?_⟩
    · show 1 + max l.depth r.depth = (Expr.logical l op' r).depth
      rw [Expr.depth_logical, Nat.add_comm]
    · show (Expr.logical l op' r).leaves ++ [] = l.leaves ++ r.leaves
      rw [Expr.leaves_logical, List.append_nil]

end Accumulator

/-! ### What is written in a group -/

/-- The comparisons that are written in some lexemes, from left to right. -/
def comparisonsIn : List Lexeme → List Comparison
  | .word _ column :: .compare op :: .word _ value :: ls =>
    ⟨column, op, some value⟩ :: comparisonsIn ls
  | _ :: ls => comparisonsIn ls
  | [] => []

/-- The lexemes of the open groups, the innermost first, with one more lexeme.  A group that is
closed becomes part of the group around it. -/
def extendGroups (groups : List (List Lexeme)) (x : Lexeme) : List (List Lexeme) :=
  match x, groups with
  | .opening, groups => [] :: groups
  | .closing, inner :: enclosing :: groups =>
    (enclosing ++ .opening :: (inner ++ [.closing])) :: groups
  | x, inner :: groups => (inner ++ [x]) :: groups
  | _, [] => []

/-- The lexemes of the groups that some lexemes leave open, the innermost first. -/
def openGroups (ls : List Lexeme) : List (List Lexeme) :=
  ls.foldl extendGroups [[]]

/-- The accumulator is sound and has the comparisons of a text, whatever may follow the text. -/
def Accumulator.Holds (a : Accumulator) (text : List Lexeme) : Prop :=
  a.Sound ∧ ∀ ls, comparisonsIn (text ++ ls) = a.comparisons ++ comparisonsIn ls

namespace Accumulator.Holds

variable {a inner : Accumulator} {text innerText : List Lexeme}

theorem empty : Accumulator.empty.Holds [] :=
  ⟨sound_empty, fun _ => rfl⟩

theorem comparison (h : a.Holds text) (hexpects : a.expectsOperand = true) (kind : WordKind)
    (column : String) (op : CompareOp) (kind' : WordKind) (value : String) :
    (a.pushOperand (.ofComparison ⟨column, op, some value⟩)).Holds
      (text ++ [.word kind column, .compare op, .word kind' value]) := by
  obtain ⟨hsound, htext⟩ := h
  obtain ⟨hsound', hcomparisons⟩ :=
    hsound.pushOperand hexpects (.comparison ⟨column, op, some value⟩)
  rw [Operand.ofComparison_eq]
  refine ⟨hsound', fun ls => ?_⟩
  rw [List.append_assoc, htext, hcomparisons, Expr.leaves_comparison, List.append_assoc]
  rfl

theorem group (h : a.Holds text) (hexpects : a.expectsOperand = true)
    (hinner : inner.Holds innerText) {query : String} {e : Expr}
    (hroot : inner.root query = .ok e) :
    (a.pushOperand ⟨e, inner.depth⟩).Holds (text ++ .opening :: (innerText ++ [.closing])) := by
  obtain ⟨hsound, htext⟩ := h
  obtain ⟨hinnerSound, hinnerText⟩ := hinner
  obtain ⟨hsound', hcomparisons⟩ := hsound.pushOperand hexpects e
  obtain ⟨hdepth, hleaves⟩ := hinnerSound.of_root hroot
  rw [hdepth]
  refine ⟨hsound', fun ls => ?_⟩
  show comparisonsIn (text ++ .opening :: (innerText ++ [.closing]) ++ ls) =
    (a.pushOperand (.ofExpr e)).comparisons ++ _
  rw [List.append_assoc, htext, hcomparisons, List.append_assoc, ← hleaves]
  show _ ++ comparisonsIn (innerText ++ [.closing] ++ ls) = _
  rw [List.append_assoc, hinnerText]
  rfl

theorem connective (h : a.Holds text) (haccepts : a.acceptsConnective = true) (op : Connective) :
    (a.pushConnective op).Holds (text ++ [.connect op]) := by
  obtain ⟨hsound, htext⟩ := h
  obtain ⟨hsound', hcomparisons⟩ := hsound.pushConnective haccepts op
  refine ⟨hsound', fun ls => ?_⟩
  rw [List.append_assoc, htext, hcomparisons]
  rfl

end Accumulator.Holds

/-! ### What the readers hold -/

/-- The lexemes of a comparison that has been begun. -/
inductive Pending.Spells : Pending → List Lexeme → Prop
  | nothing : Spells .nothing []
  | column (kind : WordKind) (name : String) : Spells (.column name) [.word kind name]
  | operator (kind : WordKind) (name : String) (op : CompareOp) :
      Spells (.operator name op) [.word kind name, .compare op]

theorem Pending.Spells.comparisonsIn_eq {pending : Pending} {begun : List Lexeme}
    (h : pending.Spells begun) : comparisonsIn begun = [] := by
  cases h <;> rfl

namespace GroupReader

/-- What a token can do to a reader. -/
inductive Advances (query : String) : GroupReader → Lexeme → GroupReader → Prop
  | blank (g : GroupReader) (afterBlank : Bool) :
      Advances query g .blank { g with afterBlank := afterBlank }
  | column (outer : List Accumulator) {group : Accumulator} (afterBlank : Bool) (kind : WordKind)
      (name : String) :
      group.expectsOperand = true →
        Advances query ⟨outer, group, .nothing, afterBlank⟩ (.word kind name)
          ⟨outer, group, .column name, afterBlank⟩
  | operator (outer : List Accumulator) (group : Accumulator) (name : String) (afterBlank : Bool)
      (op : CompareOp) :
      Advances query ⟨outer, group, .column name, afterBlank⟩ (.compare op)
        ⟨outer, group, .operator name op, afterBlank⟩
  | value (outer : List Accumulator) (group : Accumulator) (name : String) (op : CompareOp)
      (afterBlank : Bool) (kind : WordKind) (text : String) :
      Advances query ⟨outer, group, .operator name op, afterBlank⟩ (.word kind text)
        ⟨outer, group.pushOperand (.ofComparison ⟨name, op, some text⟩), .nothing, false⟩
  | opening {outer : List Accumulator} {group : Accumulator} (afterBlank : Bool) :
      group.expectsOperand = true → outer.length < depthLimit →
        Advances query ⟨outer, group, .nothing, afterBlank⟩ .opening
          ⟨group :: outer, .empty, .nothing, false⟩
  | closing (outer : List Accumulator) (enclosing : Accumulator) {group : Accumulator}
      (afterBlank : Bool) {e : Expr} :
      group.root query = .ok e →
        Advances query ⟨enclosing :: outer, group, .nothing, afterBlank⟩ .closing
          ⟨outer, enclosing.pushOperand ⟨e, group.depth⟩, .nothing, false⟩
  | connect (outer : List Accumulator) {group : Accumulator} (afterBlank : Bool)
      (op : Connective) :
      group.acceptsConnective = true →
        Advances query ⟨outer, group, .nothing, afterBlank⟩ (.connect op)
          ⟨outer, group.pushConnective op, .nothing, false⟩

variable {query : String} {g g' : GroupReader} {t : Token}

theorem advances_of_advance (ht : t.lexeme ≠ .ending) (h : g.advance query t = .ok g') :
    g.Advances query t.lexeme g' := by
  obtain ⟨outer, group, pending, afterBlank⟩ := g
  obtain ⟨x, offset⟩ := t
  cases pending with
  | nothing =>
    simp only [advance, advanceGroup] at h
    split at h
    · cases h
      exact .blank ⟨outer, group, .nothing, afterBlank⟩ true
    · split at h
      · cases h
      · split at h
        · cases h
        · split at h
          · next hroot =>
            cases h
            exact .closing _ _ afterBlank hroot
          · cases h
    · split at h
      · next hexpects =>
        split at h
        · cases h
        · next hlimit =>
          cases h
          exact .opening afterBlank hexpects (Nat.not_le.mp hlimit)
      · split at h <;> cases h
    · next op =>
      split at h
      · next haccepts =>
        simp only [Lexeme.text, Connective.ofWord?_word] at h
        cases h
        exact .connect outer afterBlank op haccepts
      · cases h
    · split at h
      · next hexpects =>
        cases h
        exact .column outer afterBlank _ _ hexpects
      · cases h
    · cases h
    · exact absurd rfl ht
  | column name =>
    simp only [advance, advanceColumn] at h
    split at h
    · cases h
      exact .blank ⟨outer, group, .column name, afterBlank⟩ afterBlank
    · next op =>
      simp only [Lexeme.text, CompareOp.ofSymbol?_symbol] at h
      cases h
      exact .operator outer group name afterBlank op
    · cases h
    · cases h
  | operator name op =>
    simp only [advance, advanceOperator] at h
    split at h
    · cases h
      exact .blank ⟨outer, group, .operator name op, afterBlank⟩ afterBlank
    · cases h
      exact .value outer group name op afterBlank _ _
    · cases h
    · cases h
    · cases h

/-- The accumulators of a reader hold the texts of their groups, the innermost first.  All but
the innermost wait for an operand, and so does the innermost while an operand is being read. -/
inductive Holds : GroupReader → List (List Lexeme) → Prop
  | intro {outer : List Accumulator} {group : Accumulator} {pending : Pending}
      {texts : List (List Lexeme)} {text begun : List Lexeme} (afterBlank : Bool) :
      List.Forall₂ (fun a text => a.expectsOperand = true ∧ a.Holds text) outer texts →
        group.Holds text → pending.Spells begun →
        (pending ≠ .nothing → group.expectsOperand = true) →
        Holds ⟨outer, group, pending, afterBlank⟩ ((text ++ begun) :: texts)

variable {texts : List (List Lexeme)}

theorem start_holds : start.Holds [[]] :=
  .intro false .nil .empty .nothing fun h => absurd rfl h

/-- A reader that is between two operands. -/
theorem holds_between {outer : List Accumulator} {group : Accumulator} {text : List Lexeme}
    (houter : List.Forall₂ (fun a text => a.expectsOperand = true ∧ a.Holds text) outer texts)
    (hgroup : group.Holds text) (afterBlank : Bool) :
    Holds ⟨outer, group, .nothing, afterBlank⟩ (text :: texts) := by
  have hholds := Holds.intro afterBlank houter hgroup .nothing fun h => absurd rfl h
  rwa [List.append_nil] at hholds

/-- **A token keeps what the accumulators hold.** -/
theorem Holds.advance {x : Lexeme} (h : g.Holds texts) (hadvances : g.Advances query x g') :
    g'.Holds (([x].filter (· ≠ .blank)).foldl extendGroups texts) := by
  cases hadvances with
  | blank _ afterBlank =>
    obtain ⟨-, houter, hgroup, hpending, hdue⟩ := h
    exact .intro afterBlank houter hgroup hpending hdue
  | column outer afterBlank kind name hexpects =>
    obtain ⟨-, houter, hgroup, hpending, -⟩ := h
    obtain ⟨⟩ := hpending
    have hholds := Holds.intro afterBlank houter hgroup (.column kind name) fun _ => hexpects
    simpa [extendGroups] using hholds
  | operator outer group name afterBlank op =>
    obtain ⟨-, houter, hgroup, hpending, hdue⟩ := h
    obtain ⟨⟩ | kind := hpending
    have hexpects := hdue nofun
    have hholds := Holds.intro afterBlank houter hgroup (.operator kind name op) fun _ => hexpects
    simpa [extendGroups] using hholds
  | value outer group name op afterBlank kind text =>
    obtain ⟨-, houter, hgroup, hpending, hdue⟩ := h
    obtain ⟨⟩ | _ | kind' := hpending
    have hcomparison := hgroup.comparison (hdue nofun) kind' name op kind text
    have hholds := holds_between houter hcomparison false
    simpa [extendGroups] using hholds
  | opening afterBlank hexpects _ =>
    obtain ⟨-, houter, hgroup, hpending, -⟩ := h
    obtain ⟨⟩ := hpending
    have hholds := holds_between (.cons ⟨hexpects, hgroup⟩ houter) .empty false
    simpa [extendGroups] using hholds
  | closing outer enclosing afterBlank hroot =>
    -- What the group holds goes over to the group around it.
    obtain ⟨-, houter, hgroup, hpending, -⟩ := h
    obtain ⟨⟩ := hpending
    obtain _ | ⟨⟨hexpects, henclosing⟩, houter⟩ := houter
    have hholds := holds_between houter (henclosing.group hexpects hgroup hroot) false
    simpa [extendGroups] using hholds
  | connect outer afterBlank op haccepts =>
    obtain ⟨-, houter, hgroup, hpending, -⟩ := h
    obtain ⟨⟩ := hpending
    have hholds := holds_between houter (hgroup.connective haccepts op) false
    simpa [extendGroups] using hholds

theorem advance_of_step (h : g.step query t = .ok g') : g.advance query t = .ok g' := by
  rw [step] at h
  split at h
  · next hadvance =>
    split at h
    · cases h
    · rw [hadvance, h]
  · cases h

/-- **Tokens keep what the accumulators hold**, one after the other. -/
theorem Holds.run {ts : List Token} {ls : List Lexeme} (h : g.Holds texts) (hts : Spans ts ls)
    (hrun : g.run query ts = .ok g') : g'.Holds (ls.foldl extendGroups texts) := by
  induction ts generalizing g texts ls with
  | nil =>
    obtain rfl := hts.lexemes
    obtain rfl := Except.ok.inj hrun
    exact h
  | cons t ts ih =>
    obtain ⟨ht, ms, hms, rfl⟩ := hts.of_cons
    rw [GroupReader.run] at hrun
    split at hrun
    · next g₁ hstep =>
      rw [List.foldl_append]
      exact ih (h.advance (advances_of_advance ht (advance_of_step hstep))) hms hrun
    · cases hrun

/-- The readers after some tokens of a query, also those that the last token makes too deep. -/
inductive Reaches (query : String) : List Token → GroupReader → Prop
  | start : Reaches query [] start
  | advance {ts : List Token} {t : Token} {g g' : GroupReader} :
      start.run query ts = .ok g → g.advance query t = .ok g' → Reaches query (ts ++ [t]) g'

/-- **Every reader that is reached holds the groups that are open.** -/
theorem Reaches.holds {ts : List Token} (h : Reaches query ts g)
    (hts : ∀ t ∈ ts, t.lexeme ≠ .ending) : g.Holds (openGroups (significant ts)) := by
  obtain _ | @⟨ts, t, g₀, _, hrun, hadvance⟩ := h
  · exact start_holds
  · obtain ⟨hts, ht⟩ := List.forall_mem_append.mp hts
    have ht : t.lexeme ≠ .ending := ht t (List.mem_singleton.mpr rfl)
    have hlast : significant [t] = [t.lexeme].filter (· ≠ .blank) := by
      simp [significant, List.filter_cons, ht]
    rw [significant_append, hlast, openGroups, List.foldl_append]
    have hholds := start_holds.run ⟨hts, rfl⟩ hrun
    exact hholds.advance (advances_of_advance ht hadvance)

end GroupReader

/-- The accumulator stands for the text of its group. -/
structure Accumulator.Tracks (query : String) (a : Accumulator) (text : List Lexeme) : Prop where
  sound : a.Sound
  depth : ∀ e, a.root query = .ok e → a.depth = e.depth
  comparisons : a.comparisons = comparisonsIn text
  root : ∀ subject, a.root query ≠ .error (.missingConnective subject)

theorem Accumulator.Holds.tracks {a : Accumulator} {text begun : List Lexeme} (h : a.Holds text)
    (hbegun : comparisonsIn begun = []) (query : String) : a.Tracks query (text ++ begun) := by
  obtain ⟨hsound, htext⟩ := h
  refine ⟨hsound, fun e hroot => (hsound.of_root hroot).1, ?_, fun subject hroot => ?_⟩
  · rw [htext, hbegun, List.append_nil]
  · -- Of the four points up to which the parts are filled, none lacks a connective only.
    obtain rfl | ⟨l, rfl⟩ | ⟨l, op, rfl⟩ | ⟨l, op, r, rfl⟩ := hsound.eq_of <;>
      simp [Accumulator.root, Accumulator.empty] at hroot

theorem GroupReader.Holds.forall₂_tracks {g : GroupReader} {texts : List (List Lexeme)}
    (h : g.Holds texts) (query : String) :
    List.Forall₂ (Accumulator.Tracks query) (g.group :: g.outer) texts := by
  obtain ⟨-, houter, hgroup, hpending, -⟩ := h
  refine .cons (hgroup.tracks hpending.comparisonsIn_eq query) ?_
  refine houter.imp fun a text ha => ?_
  have htracks := ha.2.tracks (show comparisonsIn [] = [] from rfl) query
  rwa [List.append_nil] at htracks

/-! ### Errors -/

/-- The error is that a text is no operator, or one that may not be used. -/
def Error.isUnknownOperator : Error → Bool
  | .unknownCompareOp _ | .unsupportedCompareOp _ _ _ | .unknownConnective _ => true
  | _ => false

namespace State

variable {query : String} {s : State} {t : Token} {err : Error}

/-- For what a token is not refused, and when it is refused for a missing connective. -/
theorem error_of_step (h : s.step query t = .error err) :
    err.isUnknownOperator = false ∧ (∀ q, err ≠ .missingExpression q) ∧
      ∀ q, err = .missingConnective q →
        t.lexeme = .opening ∧ ∃ last, s.phase = .filled last true := by
  cases refuses_of_step h with
  | missingConnective outer slot last offset =>
    exact ⟨rfl, nofun, fun _ _ => ⟨rfl, last, rfl⟩⟩
  | _ => exact ⟨rfl, nofun, nofun⟩

/-- What is missing at the end of a query. -/
theorem error_of_finish (h : s.finish query = .error err) :
    err.isUnknownOperator = false ∧ (∀ q, err ≠ .missingConnective q) ∧
      ∀ q, err = .missingExpression q → q = query ∧ s = start := by
  cases lacks_of_finish h with
  | expression => exact ⟨rfl, nofun, fun _ hq => ⟨(Error.missingExpression.inj hq).symm, rfl⟩⟩
  | _ => exact ⟨rfl, nofun, nofun⟩

/-- Before the first token that counts, nothing has been read. -/
theorem Reads.eq_nil {ls : List Lexeme} (h : start.Reads ls) : ls = [] := by
  obtain ⟨⟨⟩, ⟨⟩, ⟨⟩⟩ := h
  rfl

/-- A blank is remembered only until the next token. -/
theorem exists_blank_of_run {ts : List Token} (hts : ∀ t ∈ ts, t.lexeme ≠ .ending)
    (hrun : start.run query ts = .ok s) {last : Operand} (hphase : s.phase = .filled last true) :
    ∃ before blank, ts = before ++ [blank] ∧ blank.lexeme = .blank := by
  obtain rfl | ⟨before, t, rfl⟩ := List.eq_nil_or_concat' ts
  · obtain rfl := Except.ok.inj hrun
    cases hphase
  · refine ⟨before, t, rfl, ?_⟩
    rw [run_append] at hrun
    split at hrun
    · next s₁ hbefore =>
      rw [run] at hrun
      split at hrun
      · next s₂ hstep =>
        obtain rfl := Except.ok.inj hrun
        have hmoves := moves_of_step (hts t (by simp)) hstep
        generalize t.lexeme = x at hmoves
        cases hmoves with
        | blank => rfl
        | _ => cases hphase
      · cases hrun
    · cases hrun

end State

theorem parse_eq_error {query : String} {err : Error} (h : parse query = .error err) :
    State.start.run query (scan query).tokens = .error err ∨
      (∃ f : Failure, err = f.error query) ∨
      (scan query).failure = none ∧
        ∃ s, State.start.run query (scan query).tokens = .ok s ∧ s.finish query = .error err := by
  rw [parse] at h
  split at h
  · next hrun =>
    obtain rfl := Except.error.inj h
    exact .inl hrun
  · next s hrun =>
    split at h
    · next f hf => exact .inr (.inl ⟨f, (Except.error.inj h).symm⟩)
    · next hf => exact .inr (.inr ⟨hf, s, hrun, h⟩)

theorem isUnknownOperator_of_parse {query : String} {err : Error} (h : parse query = .error err) :
    err.isUnknownOperator = false := by
  obtain hrun | ⟨f, rfl⟩ | ⟨-, s, -, hfinish⟩ := parse_eq_error h
  · obtain ⟨before, t, after, s, -, -, hstep⟩ := State.exists_step_of_run hrun
    exact (State.error_of_step hstep).1
  · rfl
  · exact (State.error_of_finish hfinish).1

theorem significant_eq_nil_iff {ts : List Token} :
    significant ts = [] ↔ ∀ t ∈ ts, t.lexeme = .blank ∨ t.lexeme = .ending := by
  simp [significant, List.filter_eq_nil_iff, or_iff_not_imp_left]

/-- **A query without any expression consists of blanks.** -/
theorem parse_eq_missingExpression_iff {query q : String} :
    parse query = .error (.missingExpression q) ↔
      q = query ∧ ∃ ts, tokenize query = .ok ts ∧
        ∀ t ∈ ts, t.lexeme = .blank ∨ t.lexeme = .ending := by
  constructor
  · intro h
    obtain hrun | ⟨f, hf⟩ | ⟨hnone, s, hrun, hfinish⟩ := parse_eq_error h
    · obtain ⟨before, t, after, s, -, -, hstep⟩ := State.exists_step_of_run hrun
      exact absurd rfl ((State.error_of_step hstep).2.1 q)
    · cases hf
    · obtain ⟨rfl, rfl⟩ := (State.error_of_finish hfinish).2.2 q rfl
      have htokenize := tokenize_eq_ok_iff.mpr ⟨hnone, rfl⟩
      refine ⟨rfl, _, htokenize, significant_eq_nil_iff.mp ?_⟩
      exact (State.reads_of_run (spans_of_tokenize htokenize) hrun).eq_nil
  · rintro ⟨rfl, ts, htokenize, hts⟩
    have hspans := spans_of_tokenize htokenize
    rw [significant_eq_nil_iff.mpr hts] at hspans
    obtain ⟨hnone, -⟩ := tokenize_eq_ok_iff.mp htokenize
    have hrun : State.start.run q (scan q).tokens = .ok .start :=
      (State.run_blanks q .start hspans).elim id id
    rw [parse, hrun, hnone]
    rfl

/-- **A connective is missed at an opening parenthesis only, right after a blank.** -/
theorem exists_opening_of_missingConnective {query q : String}
    (h : parse query = .error (.missingConnective q)) :
    ∃ before blank opening after s, (scan query).tokens = before ++ blank :: opening :: after ∧
      blank.lexeme = .blank ∧ opening.lexeme = .opening ∧
      State.start.run query (before ++ [blank]) = .ok s ∧
      s.step query opening = .error (.missingConnective q) := by
  obtain hrun | ⟨f, hf⟩ | ⟨-, s, -, hfinish⟩ := parse_eq_error h
  · obtain ⟨read, opening, after, s, htokens, hread, hstep⟩ := State.exists_step_of_run hrun
    obtain ⟨hopening, last, hphase⟩ := (State.error_of_step hstep).2.2 q rfl
    have hending := @lexeme_ne_ending_of_mem_scanFrom 0 query.toList
    rw [← scan, htokens] at hending
    obtain ⟨before, blank, rfl, hblank⟩ :=
      State.exists_blank_of_run (fun t ht => hending t (List.mem_append_left _ ht)) hread hphase
    refine ⟨before, blank, opening, after, s, ?_, hblank, hopening, hread, hstep⟩
    rw [htokens, List.append_assoc]
    rfl
  · cases hf
  · exact absurd rfl ((State.error_of_finish hfinish).2.1 q)

/-- **Accumulators hold the open groups.**  Read with accumulators, a query has the tree or the
error that `parse` gives it.  After any tokens of it, each accumulator is in step: its parts are
filled in order, its depths are those of its trees and of the tree it will give, it lacks no
connective, and it has the comparisons written in its group so far.  So every operator is found
by its spelling, no query is refused for an unknown operator, it is refused for a missing
expression exactly if it is blank, and for a missing connective only at a parenthesis that opens
right after a blank. -/
theorem accumulators_hold_open_groups (query : String) :
    parseGrouped query = parse query ∧
    (∀ ts rest g, (scan query).tokens = ts ++ rest → GroupReader.Reaches query ts g →
      List.Forall₂ (Accumulator.Tracks query) (g.group :: g.outer)
        (openGroups (significant ts))) ∧
    (∀ t ∈ (scan query).tokens,
      (∀ op, t.lexeme = .compare op → CompareOp.ofSymbol? t.lexeme.text = some op) ∧
        ∀ op, t.lexeme = .connect op → Connective.ofWord? t.lexeme.text = some op) ∧
    (∀ err, parse query = .error err → err.isUnknownOperator = false) ∧
    (∀ q, parse query = .error (.missingExpression q) ↔
      q = query ∧ ∃ ts, tokenize query = .ok ts ∧
        ∀ t ∈ ts, t.lexeme = .blank ∨ t.lexeme = .ending) ∧
    ∀ q, parse query = .error (.missingConnective q) →
      ∃ before blank opening after s,
        (scan query).tokens = before ++ blank :: opening :: after ∧
        blank.lexeme = .blank ∧ opening.lexeme = .opening ∧
        State.start.run query (before ++ [blank]) = .ok s ∧
        s.step query opening = .error (.missingConnective q) := by
  refine ⟨parseGrouped_eq_parse query, ?_, ?_, fun err h => isUnknownOperator_of_parse h,
    fun q => parse_eq_missingExpression_iff, fun q h => exists_opening_of_missingConnective h⟩
  · intro ts rest g htokens hreaches
    have hending := @lexeme_ne_ending_of_mem_scanFrom 0 query.toList
    rw [← scan, htokens] at hending
    have hholds := hreaches.holds fun t ht => hending t (List.mem_append_left _ ht)
    exact hholds.forall₂_tracks query
  · intro t _
    constructor
    · intro op hop
      rw [hop]
      exact CompareOp.ofSymbol?_symbol op
    · intro op hop
      rw [hop]
      exact Connective.ofWord?_word op

/-- Two open groups, the inner one complete but not closed, then a parenthesis after a blank; and
a query of blanks. -/
theorem accumulators_hold_unclosed_group :
    let query := "a=1 OR (b>2 and c%x (d"
    let read := (scan query).tokens.take 16
    let g : GroupReader :=
      ⟨[⟨some (.comparison ⟨"a", .eq, some "1"⟩), some .or, none, 1, 0⟩],
        ⟨some (.comparison ⟨"b", .gt, some "2"⟩), some .and,
          some (.comparison ⟨"c", .contains, some "x"⟩), 1, 1⟩, .nothing, false⟩
    let connective : Token := ⟨.connect .or, 4⟩
    (scan query).tokens = read ++ (scan query).tokens.drop 16 ∧
      GroupReader.Reaches query read g ∧
      List.Forall₂ (Accumulator.Tracks query) (g.group :: g.outer)
        (openGroups (significant read)) ∧
    connective ∈ (scan query).tokens ∧
      Connective.ofWord? connective.lexeme.text = some .or ∧
    parse query = .error (.missingConnective query) ∧
      (Error.missingConnective query).isUnknownOperator = false ∧
      (∃ before blank opening after s,
        (scan query).tokens = before ++ blank :: opening :: after ∧
        blank.lexeme = .blank ∧ opening.lexeme = .opening ∧
        State.start.run query (before ++ [blank]) = .ok s ∧
        s.step query opening = .error (.missingConnective query)) ∧
    parse " \t" = .error (.missingExpression " \t") ∧
      ∃ ts, tokenize " \t" = .ok ts ∧ ∀ t ∈ ts, t.lexeme = .blank ∨ t.lexeme = .ending := by
  intro query read g connective
  obtain ⟨-, hgroups, hspelled, herror, -, hconnective⟩ := accumulators_hold_open_groups query
  obtain ⟨-, -, -, -, hblank, -⟩ := accumulators_hold_open_groups " \t"
  have htokens : (scan query).tokens = read ++ (scan query).tokens.drop 16 :=
    (List.take_append_drop 16 _).symm
  -- The reader before its last token, where the value of the third comparison is due.
  have hrun : GroupReader.start.run query ((scan query).tokens.take 15) =
      .ok ⟨g.outer, ⟨some (.comparison ⟨"b", .gt, some "2"⟩), some .and, none, 1, 0⟩,
        .operator "c" .contains, true⟩ := by
    decide +kernel
  have hread : read = (scan query).tokens.take 15 ++ [⟨.word .symbol "x", 18⟩] := by
    decide +kernel
  have hreaches : GroupReader.Reaches query read g := by
    rw [hread]
    exact .advance hrun rfl
  have hmem : connective ∈ (scan query).tokens := by decide +kernel
  have hparse : parse query = .error (.missingConnective query) := by decide +kernel
  have hspaces : parse " \t" = .error (.missingExpression " \t") := by decide +kernel
  exact ⟨htokens, hreaches, hgroups read _ g htokens hreaches, hmem,
    (hspelled connective hmem).2 .or rfl, hparse, herror _ hparse, hconnective query hparse,
    hspaces, ((hblank " \t").mp hspaces).2⟩

end FilterQuery
