/-
From a tree to a clause.

* **`Comparison.compile`** — the clause of a comparison, after a number of arguments
  that are bound already;
* **`Expr.compile`** — the clause of a tree: its comparisons from left to right, joined
  by their connectives, every join between parentheses;
* **`compileQuery`** — the clause of a query.

Design notes.  The number of bound arguments is handed from left to right and needed
for numbered placeholders only.  A tree is refused where it is deeper than
`depthLimit`, but what stands to the left of that place is compiled before and may
fail first.
-/
import FilterQuery.Catalog
import FilterQuery.Expr.Walk
import FilterQuery.Query.Parse

namespace FilterQuery

namespace Clause

/-- The condition with its question marks replaced by placeholders of a style, the first
of which has the number `next`. -/
def renumber (style : Placeholder) (next : Nat) : List Char → List Char
  | [] => []
  | '?' :: cs => (style.mark next).toList ++ renumber style (next + 1) cs
  | c :: cs => c :: renumber style next cs

/-- The clause of a converter for a column, put in place after `bound` arguments.  It
must have a question mark for every argument. -/
def embed (style : Placeholder) (bound : Nat) (column : String) (clause : Clause) :
    Except Error Clause :=
  let marks := clause.condition.toList.count '?'
  if marks ≠ clause.args.length then
    .error (.invalidParameter ("converter for " ++ Text.quote column ++ " returned " ++
      Error.number marks ++ " placeholders for " ++ Error.number clause.args.length ++ " args"))
  else
    .ok ⟨String.ofList (renumber style (bound + 1) clause.condition.toList), clause.args⟩

/-- Two clauses joined by a connective. -/
def join (l : Clause) (op : Connective) (r : Clause) : Clause :=
  ⟨"(" ++ l.condition ++ " " ++ op.word ++ " " ++ r.condition ++ ")", l.args ++ r.args⟩

end Clause

namespace Field

/-- The column of a field in a condition; of what holds times, the day is taken. -/
def columnText (f : Field) (o : Options) : String :=
  let column := (o.tableColumn? f.column).getD f.column
  if f.type.isTime then column ++ "::date" else column

/-- The argument of a comparison: a text that is to be contained is looked for anywhere. -/
def argument (op : CompareOp) (v : Value) : Value :=
  match op, v with
  | .contains, .text s => .text ("%" ++ s ++ "%")
  | _, v => v

/-- The clause of a comparison with a field that has no converter. -/
def compile (f : Field) (o : Options) (bound : Nat) (c : Comparison) : Except Error Clause :=
  match c.value with
  | none => .error (.unboundComparison c)
  | some raw =>
    if !f.allows c.op then .error (.unsupportedCompareOp c.op f.type f.column)
    else
      match f.read raw c.render with
      | .error e => .error e
      | .ok v =>
        .ok ⟨f.columnText o ++ c.op.sql ++ o.settings.placeholder.mark (bound + 1),
          [argument c.op v]⟩

end Field

namespace Comparison

/-- The field that the column of a comparison stands for. -/
def resolve (c : Comparison) (catalog : Catalog) (o : Options) : Except Error Field :=
  let name := (o.alias? c.column).getD c.column
  match catalog.get? name with
  | some f => .ok f
  | none => .error (.unknownColumn name)

/-- The clause of a comparison, after `bound` arguments. -/
def compile (c : Comparison) (catalog : Catalog) (o : Options) (bound : Nat) :
    Except Error Clause :=
  if c.column = "" then .error (.missingColumn c)
  else
    match c.resolve catalog o with
    | .error e => .error e
    | .ok f =>
      match o.converter? f.column with
      | none => f.compile o bound c
      | some convert =>
        -- A converter sees the comparison before anything else of it is checked.
        match convert f.column c.op c.value with
        | .error e => .error e
        | .ok clause => clause.embed o.settings.placeholder bound f.column

end Comparison

namespace Expr

/-- What is said to be too deep when a tree is. -/
def depthSubject (e : Expr) : String :=
  "expression tree of " ++ Error.number e.leaves.length ++ " comparisons"

/-- The clause of a tree whose root stands at a level, after `bound` arguments. -/
def compileAt (catalog : Catalog) (o : Options) (level bound : Nat) (e : Expr) :
    Except Error Clause :=
  if depthLimit < level then .error (.tooDeep depthLimit e.depthSubject)
  else
    match e with
    | comparison c => c.compile catalog o bound
    | logical l op r =>
      match compileAt catalog o (level + 1) bound l with
      | .error e => .error e
      | .ok left =>
        match compileAt catalog o (level + 1) (bound + left.args.length) r with
        | .error e => .error e
        | .ok right => .ok (left.join op right)

/-- The clause of a tree. -/
def compile (e : Expr) (catalog : Catalog) (o : Options) : Except Error Clause :=
  e.compileAt catalog o 1 0

end Expr

/-- The clause of a query. -/
def compileQuery (query : String) (s : Schema) (o : Options) : Except Error Clause :=
  if query = "" then .error (.invalidParameter "missing query")
  else
    -- A schema that cannot be used is reported before the query is looked at.
    match Catalog.ofSchema s o with
    | .error e => .error e
    | .ok catalog =>
      match parse query with
      | .error e => .error e
      | .ok e => e.compile catalog o

end FilterQuery
