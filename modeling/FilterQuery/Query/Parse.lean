/-
From tokens to a tree.

* **`State.step`** — what one token does to the state of reading;
* **`State.finish`** — the tree, once the text has ended;
* **`parse`** — the tree of a query.

Connectives have no precedence among themselves and associate to the left;
parentheses group.  The nesting of groups and the depth of the tree are both bounded
by `depthLimit`.

Design notes.  A token is looked at only if all tokens before it could stand where
they stand.  A fault of a later token therefore never hides an earlier error.
-/
import FilterQuery.Query.State
import FilterQuery.Token.Scan

namespace FilterQuery

namespace State

/-- The state after an operand has filled the slot, if the tree is not too deep. -/
def fill (query : String) (s : State) (a : Operand) : Except Error State :=
  if depthLimit < (s.slot.fill a).depth then .error (.tooDeep depthLimit query)
  else .ok { s with phase := .filled a false }

/-- A token while an operand is due. -/
def stepDue (query : String) (s : State) (t : Token) : Except Error State :=
  match t.lexeme with
  | .word _ text => .ok { s with phase := .column text }
  | .opening =>
    if depthLimit ≤ s.outer.length then .error (.tooDeep depthLimit query)
    else .ok ⟨s.slot :: s.outer, .first, .due⟩
  | .closing =>
    match s.outer, s.slot with
    | _ :: _, .right _ _ => .error (.missingRightOperand query)
    | _, _ => .error (.unexpectedClosing t.offset query)
  | .connect op => .error (.unexpectedConnective op t.offset query)
  | .compare op => .error (.unexpectedToken (.compare op) t.offset query)
  | .blank | .ending => .ok s

/-- A token after a column. -/
def stepColumn (query : String) (s : State) (name : String) (t : Token) : Except Error State :=
  match t.lexeme with
  | .blank => .ok s
  | .compare op => .ok { s with phase := .operator name op }
  | .opening => .error (.unexpectedOpening t.offset none query)
  | _ => .error (.missingCompareOp name query)

/-- A token after a column and a comparison. -/
def stepOperator (query : String) (s : State) (name : String) (op : CompareOp) (t : Token) :
    Except Error State :=
  match t.lexeme with
  | .blank => .ok s
  | .word _ text => s.fill query (.ofComparison ⟨name, op, some text⟩)
  | .compare op' => .error (.unexpectedToken (.compare op') t.offset query)
  | .opening => .error (.unexpectedOpening t.offset (some (name ++ op.symbol)) query)
  | _ => .error (.missingValue name op query)

/-- A token after an operand. -/
def stepFilled (query : String) (s : State) (last : Operand) (afterBlank : Bool) (t : Token) :
    Except Error State :=
  match t.lexeme with
  | .blank => .ok { s with phase := .filled last true }
  | .connect op => .ok { s with slot := .right (s.slot.fill last) op, phase := .due }
  | .closing =>
    match s.outer with
    | [] => .error (.unexpectedClosing t.offset query)
    | slot :: outer => fill query ⟨outer, slot, .due⟩ (s.slot.fill last)
  | .opening =>
    if afterBlank then .error (.missingConnective query)
    else .error (.unexpectedOpening t.offset (some last.tree.render) query)
  | .word _ text => .error (.unexpectedOperand text t.offset query)
  | .compare op => .error (.unexpectedToken (.compare op) t.offset query)
  | .ending => .ok s

/-- The state after one more token. -/
def step (query : String) (s : State) (t : Token) : Except Error State :=
  match s.phase with
  | .due => s.stepDue query t
  | .column name => s.stepColumn query name t
  | .operator name op => s.stepOperator query name op t
  | .filled last afterBlank => s.stepFilled query last afterBlank t

/-- The tree that has been read, if nothing is missing at the end of the text. -/
def finish (query : String) (s : State) : Except Error Expr :=
  match s.phase with
  | .column name => .error (.missingCompareOp name query)
  | .operator name op => .error (.missingValue name op query)
  | .due =>
    match s.outer, s.slot with
    | _ :: _, _ => .error (.unclosedGroup query)
    | [], .first => .error (.missingExpression query)
    | [], .right _ _ => .error (.missingRightOperand query)
  | .filled last _ =>
    match s.outer with
    | _ :: _ => .error (.unclosedGroup query)
    | [] => .ok (s.slot.fill last).tree

/-- The state after some tokens. -/
def run (query : String) (s : State) : List Token → Except Error State
  | [] => .ok s
  | t :: ts =>
    match s.step query t with
    | .ok s' => s'.run query ts
    | .error e => .error e

end State

/-- The tree of a query. -/
def parse (query : String) : Except Error Expr :=
  let tokens := scan query
  match State.start.run query tokens.tokens with
  | .error e => .error e
  | .ok s =>
    match tokens.failure with
    | some f => .error (f.error query)
    | none => s.finish query

end FilterQuery
