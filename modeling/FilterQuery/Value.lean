/-
Values: what is bound to the placeholders of a compiled condition.

* **`Value`** — a truth value, a whole number of 64 bits, a floating-point number, a
  date or a text;
* **`Value.render`** — the text of a value.  Floating-point numbers are written
  without an exponent, whole ones without a fraction.
-/
import FilterQuery.Binary64.Layout
import FilterQuery.Calendar.Printer

namespace FilterQuery

/-- A bound argument. -/
inductive Value
  | bool (b : Bool)
  | int (n : Int64)
  | float (x : Binary64)
  | date (d : Date)
  | text (s : String)
deriving DecidableEq

namespace Value

/-- Floating-point values have the shortest digits, the upper of two equally near
ones, and never an exponent. -/
def layout : Layout where
  tie := .up
  positional := fun _ => true
  pointed := false

/-- The text of a value. -/
def render : Value → String
  | bool true => "true"
  | bool false => "false"
  | int n => String.ofList (Numeral.ofInt n.toInt)
  | float x => String.ofList (x.write layout)
  | date d => String.ofList d.write
  | text s => s

end Value

end FilterQuery
