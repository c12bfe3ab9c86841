/-
Writing a date.

* **`Date.write`** — year, month and day with hyphens between them, month and day on
  two digits.  A year of at most four digits is written on four; any other year has a
  sign and at least four digits.
-/
import FilterQuery.Calendar.Date
import FilterQuery.Numeral

namespace FilterQuery

namespace Calendar

/-- A year from 0 to 9999 on four digits, any other year with its sign. -/
def writeYear (year : Int) : List Char :=
  if 0 ≤ year ∧ year ≤ 9999 then Numeral.padded 4 year.natAbs
  else (if year < 0 then '-' else '+') :: Numeral.padded 4 year.natAbs

end Calendar

/-- The text of a date. -/
def Date.write (d : Date) : List Char :=
  Calendar.writeYear d.year ++ '-' :: (Numeral.padded 2 d.month ++ '-' :: Numeral.padded 2 d.day)

end FilterQuery
