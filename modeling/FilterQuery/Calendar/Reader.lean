/-
Reading a date.

A date is written as year, month and day with hyphens between them.  White space may
stand before each of the three numbers.  A year without a sign has one to four
digits, a year with a sign any number of them; month and day have one or two.

* **`Date.readWith?`** — the grammar, over what may be skipped at a hyphen;
* **`Date.read?`** — nothing is skipped: the form in which a value is given;
* **`Date.readLoose?`** — white space is skipped before a hyphen and at the end as
  well: the form in which stored text is recognised as a date.
-/
import FilterQuery.Calendar.Date
import FilterQuery.Numeral
import FilterQuery.Text.Whitespace

namespace FilterQuery

namespace Calendar

/-- What follows after white space. -/
def skipWhite (cs : List Char) : List Char :=
  cs.dropWhile Text.isWhite

/-- A number of at most `width` digits, and what follows it. -/
def shortNumber? (width : Nat) (cs : List Char) : Option (Nat × List Char) :=
  let digits := (cs.take width).takeWhile Char.isDigit
  (Numeral.nat? digits).map fun n => (n, cs.drop digits.length)

/-- A number of any length, and what follows it. -/
def longNumber? (cs : List Char) : Option (Nat × List Char) :=
  (Numeral.nat? (cs.takeWhile Char.isDigit)).map fun n => (n, cs.dropWhile Char.isDigit)

/-- A year, and what follows it. -/
def year? : List Char → Option (Int × List Char)
  | '-' :: cs => (longNumber? cs).map fun r => (-(r.1 : Int), r.2)
  | '+' :: cs => (longNumber? cs).map fun r => ((r.1 : Int), r.2)
  | cs => (shortNumber? 4 cs).map fun r => ((r.1 : Int), r.2)

/-- What follows a hyphen. -/
def afterHyphen? : List Char → Option (List Char)
  | '-' :: cs => some cs
  | _ => none

end Calendar

namespace Date

open Calendar in
/-- The date that a text writes, if `gap` drops what may stand before a hyphen and at
the end. -/
def readWith? (gap : List Char → List Char) (cs : List Char) : Option Date := do
  let (year, cs) ← year? (skipWhite cs)
  let cs ← afterHyphen? (gap cs)
  let (month, cs) ← shortNumber? 2 (skipWhite cs)
  let cs ← afterHyphen? (gap cs)
  let (day, cs) ← shortNumber? 2 (skipWhite cs)
  if gap cs = [] then ofParts? year month day else none

/-- The date that a text writes, with nothing before a hyphen or at the end. -/
def read? (cs : List Char) : Option Date :=
  readWith? id cs

/-- The date that a text writes, white space allowed before a hyphen and at the end. -/
def readLoose? (cs : List Char) : Option Date :=
  readWith? Calendar.skipWhite cs

end Date

end FilterQuery
