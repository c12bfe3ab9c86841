/-
Reading a query with an accumulator for every open group.

An accumulator holds what a group has read so far: a left operand, a connective, a right operand
and the depths of the two.  Its five parts are filled one after the other, and no type keeps
them in step.  The reader asks the accumulator what may come next, looks operators up by their
spelling, and has an answer for every combination of the parts, also for those that do not
occur.

* **`Accumulator`** — the five parts, and the two operations that fill them;
* **`GroupReader`** — the accumulators of the enclosing groups and of the innermost one, and
  what has been read of an operand;
* **`GroupReader.advance`** — what one token does; **`GroupReader.step`** checks the depth
  afterwards;
* **`GroupReader.Follows`** — how such a reader stands to the state of `parse`;
* **`GroupReader.step_follows`**, **`GroupReader.run_follows`** — both read the same tokens in
  lockstep, with the same errors;
* **`parseGrouped_eq_parse`** — so both give the same result for every query.

Design notes.  The groups that wait for the group inside them stand on a list, the innermost
first.  A slot of `parse` is an accumulator that expects an operand.  An operand that fills
the slot is pushed onto it.
-/
import FilterQuery.Query.Parse

namespace FilterQuery

/-- What a group has read so far. -/
structure Accumulator where
  left : Option Expr
  op : Option Connective
  right : Option Expr
  leftDepth : Nat
  rightDepth : Nat
deriving DecidableEq

namespace Accumulator

/-- Nothing has been read. -/
def empty : Accumulator :=
  ⟨none, none, none, 0, 0⟩

/-- An operand is due. -/
def expectsOperand (a : Accumulator) : Bool :=
  a.left.isNone || (a.op.isSome && a.right.isNone)

/-- A connective may follow. -/
def acceptsConnective (a : Accumulator) : Bool :=
  a.left.isSome && (a.op.isNone || a.right.isSome)

/-- The depth of what has been read. -/
def depth (a : Accumulator) : Nat :=
  if a.right.isSome then 1 + max a.leftDepth a.rightDepth else a.leftDepth

/-- The accumulator with one more operand: on the left if there is none yet, otherwise on the
right. -/
def pushOperand (a : Accumulator) (operand : Operand) : Accumulator :=
  if a.left.isNone then { a with left := some operand.tree, leftDepth := operand.depth }
  else { a with right := some operand.tree, rightDepth := operand.depth }

/-- The accumulator with one more connective.  If there is an operand on the right, all that has
been read is folded to the left first. -/
def pushConnective (a : Accumulator) (op : Connective) : Accumulator :=
  match a.right with
  | none => { a with op := some op }
  | some r =>
    match a.left, a.op with
    | some l, some op' => ⟨some (.logical l op' r), some op, none, a.depth, 0⟩
    | _, _ => ⟨none, some op, none, a.leftDepth, a.rightDepth⟩

/-- The operand that was read last. -/
def lastOperand? (a : Accumulator) : Option Expr :=
  a.right.or a.left

/-- The tree of the group, if it is complete. -/
def root (query : String) (a : Accumulator) : Except Error Expr :=
  match a.left, a.op, a.right with
  | some l, some op, some r => .ok (.logical l op r)
  | some l, none, none => .ok l
  | some _, some _, none => .error (.missingRightOperand query)
  | some _, none, some _ => .error (.missingConnective query)
  | none, _, _ => .error (.missingExpression query)

end Accumulator

/-- What has been read of a comparison. -/
inductive Pending
  | nothing
  | column (name : String)
  | operator (name : String) (op : CompareOp)
deriving DecidableEq

/-- The accumulators of the open groups, and what has been read since the last operand or
connective. -/
structure GroupReader where
  /-- The enclosing groups, the innermost first. -/
  outer : List Accumulator
  group : Accumulator
  pending : Pending
  afterBlank : Bool
deriving DecidableEq

namespace GroupReader

/-- The reader before the first token. -/
def start : GroupReader :=
  ⟨[], .empty, .nothing, false⟩

/-- A token between two operands. -/
def advanceGroup (query : String) (g : GroupReader) (t : Token) : Except Error GroupReader :=
  match t.lexeme with
  | .blank => .ok { g with afterBlank := true }
  | .closing =>
    match g.outer with
    | [] => .error (.unexpectedClosing t.offset query)
    | enclosing :: outer =>
      if g.group.left.isNone then .error (.unexpectedClosing t.offset query)
      else
        match g.group.root query with
        | .ok e => .ok ⟨outer, enclosing.pushOperand ⟨e, g.group.depth⟩, .nothing, false⟩
        | .error err => .error err
  | .opening =>
    if g.group.expectsOperand then
      if depthLimit ≤ g.outer.length then .error (.tooDeep depthLimit query)
      else .ok ⟨g.group :: g.outer, .empty, .nothing, false⟩
    else if g.afterBlank then .error (.missingConnective query)
    else .error (.unexpectedOpening t.offset (g.group.lastOperand?.map Expr.render) query)
  | .connect op =>
    if g.group.acceptsConnective then
      match Connective.ofWord? t.lexeme.text with
      | some op => .ok { g with group := g.group.pushConnective op, afterBlank := false }
      | none => .error (.unknownConnective t.lexeme.text)
    else .error (.unexpectedConnective op t.offset query)
  | .word _ text =>
    if g.group.expectsOperand then .ok { g with pending := .column text }
    else .error (.unexpectedOperand text t.offset query)
  | .compare _ => .error (.unexpectedToken t.lexeme t.offset query)
  | .ending => .ok g

/-- A token after a column. -/
def advanceColumn (query : String) (g : GroupReader) (name : String) (t : Token) :
    Except Error GroupReader :=
  match t.lexeme with
  | .blank => .ok g
  | .compare _ =>
    match CompareOp.ofSymbol? t.lexeme.text with
    | some op => .ok { g with pending := .operator name op }
    | none => .error (.unknownCompareOp t.lexeme.text)
  | .opening => .error (.unexpectedOpening t.offset none query)
  | _ => .error (.missingCompareOp name query)

/-- A token after a column and a comparison. -/
def advanceOperator (query : String) (g : GroupReader) (name : String) (op : CompareOp)
    (t : Token) : Except Error GroupReader :=
  match t.lexeme with
  | .blank => .ok g
  | .word _ text =>
    let operand := Operand.ofComparison ⟨name, op, some text⟩
    .ok ⟨g.outer, g.group.pushOperand operand, .nothing, false⟩
  | .compare _ => .error (.unexpectedToken t.lexeme t.offset query)
  | .opening => .error (.unexpectedOpening t.offset (some (name ++ op.symbol)) query)
  | _ => .error (.missingValue name op query)

/-- The reader after one more token, however deep its group has become. -/
def advance (query : String) (g : GroupReader) (t : Token) : Except Error GroupReader :=
  match g.pending with
  | .nothing => g.advanceGroup query t
  | .column name => g.advanceColumn query name t
  | .operator name op => g.advanceOperator query name op t

/-- The reader after one more token, unless its group has become too deep. -/
def step (query : String) (g : GroupReader) (t : Token) : Except Error GroupReader :=
  match g.advance query t with
  | .ok g' => if depthLimit < g'.group.depth then .error (.tooDeep depthLimit query) else .ok g'
  | .error err => .error err

/-- The reader after some tokens. -/
def run (query : String) (g : GroupReader) : List Token → Except Error GroupReader
  | [] => .ok g
  | t :: ts =>
    match g.step query t with
    | .ok g' => g'.run query ts
    | .error err => .error err

/-- The tree that has been read, if nothing is missing at the end of the text. -/
def finish (query : String) (g : GroupReader) : Except Error Expr :=
  match g.pending with
  | .column name => .error (.missingCompareOp name query)
  | .operator name op => .error (.missingValue name op query)
  | .nothing =>
    match g.outer with
    | _ :: _ => .error (.unclosedGroup query)
    | [] => g.group.root query

end GroupReader

/-- The tree of a query, read with an accumulator for every open group. -/
def parseGrouped (query : String) : Except Error Expr :=
  let tokens := scan query
  match GroupReader.start.run query tokens.tokens with
  | .error err => .error err
  | .ok g =>
    match tokens.failure with
    | some f => .error (f.error query)
    | none => g.finish query

/-! ### Slots as accumulators -/

/-- A slot as an accumulator: what stands before the operand that is due. -/
def Slot.accumulator : Slot → Accumulator
  | first => .empty
  | right l op => ⟨some l.tree, some op, none, l.depth, 0⟩

namespace Slot

variable (slot : Slot) (a : Operand)

@[simp] theorem expectsOperand_accumulator : slot.accumulator.expectsOperand = true := by
  cases slot <;> rfl

@[simp] theorem acceptsConnective_accumulator : slot.accumulator.acceptsConnective = false := by
  cases slot <;> rfl

@[simp] theorem expectsOperand_push :
    (slot.accumulator.pushOperand a).expectsOperand = false := by
  cases slot <;> rfl

@[simp] theorem acceptsConnective_push :
    (slot.accumulator.pushOperand a).acceptsConnective = true := by
  cases slot <;> rfl

@[simp] theorem isNone_left_push : (slot.accumulator.pushOperand a).left.isNone = false := by
  cases slot <;> rfl

@[simp] theorem lastOperand?_push :
    (slot.accumulator.pushOperand a).lastOperand? = some a.tree := by
  cases slot <;> rfl

@[simp] theorem depth_push : (slot.accumulator.pushOperand a).depth = (slot.fill a).depth := by
  cases slot <;> rfl

@[simp] theorem root_push (query : String) :
    (slot.accumulator.pushOperand a).root query = .ok (slot.fill a).tree := by
  cases slot <;> rfl

/-- All that a group has read becomes the left side of its next connective. -/
@[simp] theorem pushConnective_push (op : Connective) :
    (slot.accumulator.pushOperand a).pushConnective op =
      (Slot.right (slot.fill a) op).accumulator := by
  cases slot <;> rfl

end Slot

/-! ### Lockstep -/

namespace GroupReader

/-- The reader has read what the state has read. -/
inductive Follows : GroupReader → State → Prop
  | due (outer : List Slot) (slot : Slot) (afterBlank : Bool) :
      Follows ⟨outer.map Slot.accumulator, slot.accumulator, .nothing, afterBlank⟩
        ⟨outer, slot, .due⟩
  | column (outer : List Slot) (slot : Slot) (name : String) (afterBlank : Bool) :
      Follows ⟨outer.map Slot.accumulator, slot.accumulator, .column name, afterBlank⟩
        ⟨outer, slot, .column name⟩
  | operator (outer : List Slot) (slot : Slot) (name : String) (op : CompareOp)
      (afterBlank : Bool) :
      Follows ⟨outer.map Slot.accumulator, slot.accumulator, .operator name op, afterBlank⟩
        ⟨outer, slot, .operator name op⟩
  | filled (outer : List Slot) (slot : Slot) (last : Operand) (afterBlank : Bool) :
      Follows ⟨outer.map Slot.accumulator, slot.accumulator.pushOperand last, .nothing,
        afterBlank⟩ ⟨outer, slot, .filled last afterBlank⟩

/-- Both fail with the same error, or both go on and stand to each other as before. -/
inductive Agrees : Except Error GroupReader → Except Error State → Prop
  | ok {g : GroupReader} {s : State} :
      g.Follows s → g.group.depth ≤ depthLimit → Agrees (.ok g) (.ok s)
  | error (err : Error) : Agrees (.error err) (.error err)

variable {query : String} {g g' : GroupReader} {s s' : State} {t : Token} {err : Error}

theorem agrees_of_ok (hg : g.advance query t = .ok g') (hs : s.step query t = .ok s')
    (hfollows : g'.Follows s') (hdepth : g'.group.depth ≤ depthLimit) :
    Agrees (g.step query t) (s.step query t) := by
  rw [step, hg, hs]
  dsimp only
  rw [if_neg (Nat.not_lt.mpr hdepth)]
  exact .ok hfollows hdepth

theorem agrees_of_error (hg : g.advance query t = .error err) (hs : s.step query t = .error err) :
    Agrees (g.step query t) (s.step query t) := by
  rw [step, hg, hs]
  exact .error err

/-- An operand that is pushed fills the slot, and both find out whether that is too deep. -/
theorem agrees_of_fill {outer : List Slot} {slot : Slot} {phase : Phase} {operand : Operand}
    (hg : g.advance query t = .ok ⟨outer.map Slot.accumulator,
      slot.accumulator.pushOperand operand, .nothing, false⟩)
    (hs : s.step query t = State.fill query ⟨outer, slot, phase⟩ operand) :
    Agrees (g.step query t) (s.step query t) := by
  rw [step, hg, hs, State.fill]
  dsimp only
  rw [slot.depth_push]
  split
  · exact .error _
  · next hdepth =>
    refine .ok (.filled outer slot operand false) ?_
    rw [slot.depth_push]
    exact Nat.not_lt.mp hdepth

theorem step_due (outer : List Slot) (slot : Slot) (afterBlank : Bool)
    (hdepth : slot.accumulator.depth ≤ depthLimit) (t : Token) :
    Agrees
      (step query ⟨outer.map Slot.accumulator, slot.accumulator, .nothing, afterBlank⟩ t)
      (State.step query ⟨outer, slot, .due⟩ t) := by
  obtain ⟨x, offset⟩ := t
  cases x with
  | word kind text =>
    exact agrees_of_ok (by simp [advance, advanceGroup]) rfl (.column outer slot text afterBlank)
      hdepth
  | compare op => exact agrees_of_error rfl rfl
  | connect op => exact agrees_of_error (by simp [advance, advanceGroup]) rfl
  | opening =>
    by_cases hlimit : depthLimit ≤ outer.length
    · exact agrees_of_error (by simp [advance, advanceGroup, hlimit]) (if_pos hlimit)
    · exact agrees_of_ok (by simp [advance, advanceGroup, hlimit]; rfl) (if_neg hlimit)
        (.due (slot :: outer) .first false) (Nat.zero_le _)
  | closing =>
    -- Without a left operand the group is empty, and with one its connective has no right side.
    cases outer with
    | nil => exact agrees_of_error rfl rfl
    | cons enclosing outer =>
      cases slot with
      | first => exact agrees_of_error rfl rfl
      | right l op => exact agrees_of_error rfl rfl
  | blank => exact agrees_of_ok rfl rfl (.due outer slot true) hdepth
  | ending => exact agrees_of_ok rfl rfl (.due outer slot afterBlank) hdepth

theorem step_column (outer : List Slot) (slot : Slot) (name : String) (afterBlank : Bool)
    (hdepth : slot.accumulator.depth ≤ depthLimit) (t : Token) :
    Agrees
      (step query ⟨outer.map Slot.accumulator, slot.accumulator, .column name, afterBlank⟩ t)
      (State.step query ⟨outer, slot, .column name⟩ t) := by
  obtain ⟨x, offset⟩ := t
  cases x with
  | compare op =>
    -- The comparison is found by its spelling.
    have hop : CompareOp.ofSymbol? (Lexeme.compare op).text = some op :=
      CompareOp.ofSymbol?_symbol op
    exact agrees_of_ok (by simp [advance, advanceColumn, hop]) rfl
      (.operator outer slot name op afterBlank) hdepth
  | blank => exact agrees_of_ok rfl rfl (.column outer slot name afterBlank) hdepth
  | _ => exact agrees_of_error rfl rfl

theorem step_operator (outer : List Slot) (slot : Slot) (name : String) (op : CompareOp)
    (afterBlank : Bool) (hdepth : slot.accumulator.depth ≤ depthLimit) (t : Token) :
    Agrees
      (step query ⟨outer.map Slot.accumulator, slot.accumulator, .operator name op, afterBlank⟩ t)
      (State.step query ⟨outer, slot, .operator name op⟩ t) := by
  obtain ⟨x, offset⟩ := t
  cases x with
  | word kind text => exact agrees_of_fill rfl rfl
  | blank => exact agrees_of_ok rfl rfl (.operator outer slot name op afterBlank) hdepth
  | _ => exact agrees_of_error rfl rfl

theorem step_filled (outer : List Slot) (slot : Slot) (last : Operand) (afterBlank : Bool)
    (hdepth : (slot.accumulator.pushOperand last).depth ≤ depthLimit) (t : Token) :
    Agrees
      (step query ⟨outer.map Slot.accumulator, slot.accumulator.pushOperand last, .nothing,
        afterBlank⟩ t)
      (State.step query ⟨outer, slot, .filled last afterBlank⟩ t) := by
  obtain ⟨x, offset⟩ := t
  cases x with
  | word kind text => exact agrees_of_error (by simp [advance, advanceGroup]) rfl
  | compare op => exact agrees_of_error rfl rfl
  | connect op =>
    have hop : Connective.ofWord? (Lexeme.connect op).text = some op := Connective.ofWord?_word op
    refine agrees_of_ok (by simp [advance, advanceGroup, hop]) rfl
      (.due outer (.right (slot.fill last) op) false) ?_
    rwa [slot.depth_push] at hdepth
  | opening =>
    cases afterBlank with
    | true => exact agrees_of_error (by simp [advance, advanceGroup]) rfl
    | false => exact agrees_of_error (by simp [advance, advanceGroup]) rfl
  | closing =>
    cases outer with
    | nil => exact agrees_of_error rfl rfl
    | cons enclosing outer => exact agrees_of_fill (by simp [advance, advanceGroup]) rfl
  | blank => exact agrees_of_ok rfl rfl (.filled outer slot last true) hdepth
  | ending => exact agrees_of_ok rfl rfl (.filled outer slot last afterBlank) hdepth

/-- **A token does the same to both.** -/
theorem step_follows (query : String) (h : g.Follows s) (hdepth : g.group.depth ≤ depthLimit)
    (t : Token) : Agrees (g.step query t) (s.step query t) := by
  cases h with
  | due outer slot afterBlank => exact step_due outer slot afterBlank hdepth t
  | column outer slot name afterBlank => exact step_column outer slot name afterBlank hdepth t
  | operator outer slot name op afterBlank =>
    exact step_operator outer slot name op afterBlank hdepth t
  | filled outer slot last afterBlank => exact step_filled outer slot last afterBlank hdepth t

/-- **Tokens do the same to both, one after the other.** -/
theorem run_follows (query : String) (h : g.Follows s) (hdepth : g.group.depth ≤ depthLimit)
    (ts : List Token) : Agrees (g.run query ts) (s.run query ts) := by
  induction ts generalizing g s with
  | nil => exact .ok h hdepth
  | cons t ts ih =>
    rw [run, State.run]
    have hstep := step_follows query h hdepth t
    generalize g.step query t = r at hstep
    generalize s.step query t = r' at hstep
    cases hstep with
    | ok hfollows hdepth' => exact ih hfollows hdepth'
    | error err => exact .error err

/-- At the end of the text, both miss the same or have the same tree. -/
theorem finish_follows (h : g.Follows s) : g.finish query = s.finish query := by
  cases h with
  | due outer slot afterBlank =>
    cases outer with
    | nil => cases slot <;> rfl
    | cons enclosing outer => rfl
  | column outer slot name afterBlank => rfl
  | operator outer slot name op afterBlank => rfl
  | filled outer slot last afterBlank =>
    cases outer with
    | nil => exact slot.root_push last query
    | cons enclosing outer => rfl

end GroupReader

/-- **Accumulators read a query as `parse` does**, with the same tree or the same error. -/
theorem parseGrouped_eq_parse (query : String) : parseGrouped query = parse query := by
  have hrun := GroupReader.run_follows query (.due [] .first false)
    (Nat.zero_le depthLimit) (scan query).tokens
  rw [parseGrouped, parse]
  change GroupReader.Agrees (GroupReader.start.run query (scan query).tokens)
    (State.start.run query (scan query).tokens) at hrun
  generalize GroupReader.start.run query (scan query).tokens = r at hrun
  generalize State.start.run query (scan query).tokens = r' at hrun
  cases hrun with
  | error err => rfl
  | ok hfollows _ =>
    dsimp only
    cases (scan query).failure with
    | some f => rfl
    | none => exact GroupReader.finish_follows hfollows

end FilterQuery
