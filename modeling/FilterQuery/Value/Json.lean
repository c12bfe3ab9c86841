/-
Values in JSON.

* **`Value.toJson`** — a value without any mark of its kind; a date is a string;
* **`Value.ofJson?`** — the value that a JSON scalar denotes.  A whole number outside
  the range of 64 bits becomes a floating-point number, and a string that writes a
  date becomes that date.
-/
import FilterQuery.Calendar.Reader
import FilterQuery.Json.Basic
import FilterQuery.Json.Number
import FilterQuery.Value

namespace FilterQuery

namespace Value

/-- A value as a JSON scalar. -/
def toJson : Value → Json
  | bool b => .scalar (.bool b)
  | int n => .scalar (.number (JsonNumber.ofInt n.toInt))
  | float x => .scalar (.number (JsonNumber.ofFloat x))
  | date d => .text (String.ofList d.write)
  | text s => .text s

/-- A number as a value: a whole number if it has 64 bits. -/
def ofNumber : JsonNumber → Value
  | .int n =>
    if -2 ^ (63 : Nat) ≤ n ∧ n < 2 ^ (63 : Nat) then int (Int64.ofInt n)
    else float (Binary64.ofRatio (n < 0) n.natAbs 1)
  | .float x => float x

/-- A text as a value: a date if it writes one. -/
def ofText (s : String) : Value :=
  match Date.readLoose? s.toList with
  | some d => date d
  | none => text s

/-- The value that a JSON scalar denotes. -/
def ofJson? : Json → Option Value
  | .scalar (.bool b) => some (bool b)
  | .scalar (.number lexeme) => (JsonNumber.read? lexeme).map ofNumber
  | .scalar (.string s) => s.map ofText
  | _ => none

end Value

end FilterQuery
