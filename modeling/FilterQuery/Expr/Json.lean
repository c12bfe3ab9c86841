/-
Trees in JSON.

* **`Expr.toJson`** — a tree as nested objects: the kind of a node as the only key, its
  fields in an object below;
* **`Expr.ofJson?`** — the tree that a JSON value stands for;
* **`Expr.read?`** — the tree of a JSON text.

Design notes.  At most `Expr.jsonNesting` arrays and objects may be nested where they
are part of the tree.  Every level of a tree takes two of them.  What stands in fields
that a node does not have is not counted.
-/
import FilterQuery.Expr.Basic
import FilterQuery.Json.Decode
import FilterQuery.Json.Reader
import FilterQuery.Json.Writer

namespace FilterQuery

namespace CompareOp

/-- The name of a comparison in JSON. -/
def tag : CompareOp → String
  | eq => "Eq"
  | ne => "Ne"
  | gt => "Gt"
  | ge => "Gte"
  | lt => "Lt"
  | le => "Lte"
  | contains => "Contains"

/-- The comparison with a name in JSON. -/
def ofTag? (s : String) : Option CompareOp :=
  all.find? (·.tag == s)

theorem ofTag?_tag (op : CompareOp) : ofTag? op.tag = some op := by
  cases op <;> decide

end CompareOp

namespace Connective

/-- The name of a connective in JSON. -/
def tag : Connective → String
  | and => "And"
  | or => "Or"

/-- The connective with a name in JSON. -/
def ofTag? (s : String) : Option Connective :=
  all.find? (·.tag == s)

theorem ofTag?_tag (op : Connective) : ofTag? op.tag = some op := by
  cases op <;> decide

end Connective

namespace Comparison

/-- A comparison as a JSON object. -/
def toJson (c : Comparison) : Json :=
  .record [("column", .text c.column), ("op", .text c.op.tag),
    ("value", (c.value.map Json.text).getD .null)]

/-- The value of a comparison: a text, or nothing if it is missing or `null`. -/
def valueOfJson? : Option Json → Option (Option String)
  | none => some none
  | some j => if j.isNull then some none else j.text?.map some

/-- The comparison that a JSON value stands for; `nesting` more arrays and objects may
be nested inside it. -/
def ofJson? (nesting : Nat) (j : Json) : Option Comparison :=
  match j.fields? ["column", "op", "value"] false with
  | some [some column, some op, value] => do
    let column ← column.text?
    let op ← op.variant? CompareOp.ofTag? (0 < nesting)
    let value ← valueOfJson? value
    return ⟨column, op, value⟩
  | _ => none

end Comparison

namespace Expr

/-- How many arrays and objects may be nested in the JSON of a tree. -/
def jsonNesting : Nat := 127

/-- A tree as a JSON value. -/
def toJson : Expr → Json
  | comparison c => .record [("Comparison", c.toJson)]
  | logical l op r =>
    .record [("Logical",
      .record [("left", l.toJson), ("op", .text op.tag), ("right", r.toJson)])]

/-- The tree that a JSON value stands for, if at most `nesting` arrays and objects are
nested in it. -/
def ofJson? : Nat → Json → Option Expr
  | nesting + 2, .object [(some kind, body)] =>
    if kind = "Comparison" then (Comparison.ofJson? nesting body).map comparison
    else if kind = "Logical" then
      match body.fields? ["left", "op", "right"] false with
      | some [some l, some op, some r] => do
        let l ← ofJson? nesting l
        let op ← op.variant? Connective.ofTag? (0 < nesting)
        let r ← ofJson? nesting r
        return logical l op r
      | _ => none
    else none
  | _, _ => none

/-- The tree of a JSON text. -/
def read? (text : String) : Option Expr :=
  (Json.read? text).bind (ofJson? jsonNesting)

/-- The JSON text of a tree. -/
def write (e : Expr) : String :=
  e.toJson.write

end Expr

end FilterQuery
