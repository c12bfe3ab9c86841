/-
Clauses in JSON.

* **`Clause.toJson`** — the condition and the list of arguments;
* **`Clause.read?`** — the clause of a JSON text.
-/
import FilterQuery.Clause.Basic
import FilterQuery.Json.Decode
import FilterQuery.Json.Reader
import FilterQuery.Json.Writer
import FilterQuery.Value.Json

namespace FilterQuery

namespace Clause

/-- A clause as a JSON object. -/
def toJson (c : Clause) : Json :=
  .record [("condition", .text c.condition), ("args", .array (c.args.map Value.toJson))]

/-- The clause that a JSON value stands for. -/
def ofJson? (j : Json) : Option Clause :=
  match j.fields? ["condition", "args"] false with
  | some [some condition, some args] => do
    let condition ← condition.text?
    let args ← args.items?
    let args ← args.mapM Value.ofJson?
    return ⟨condition, args⟩
  | _ => none

/-- The clause of a JSON text. -/
def read? (text : String) : Option Clause :=
  (Json.read? text).bind ofJson?

/-- The JSON text of a clause. -/
def write (c : Clause) : String :=
  c.toJson.write

end Clause

end FilterQuery
