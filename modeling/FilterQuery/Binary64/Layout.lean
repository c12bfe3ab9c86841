/-
Writing a floating-point number.

The digits are the shortest that read back; a `Layout` says how they are set out.

* **`Layout`** — the decisions of a format: ties, which magnitudes are written
  positionally, whether a whole number keeps a fraction;
* **`Binary64.write`** — the text of a finite number.
-/
import FilterQuery.Binary64.Shortest

namespace FilterQuery

/-- How a decimal is set out on the page. -/
structure Layout where
  /-- The choice between two equally near shortest decimals. -/
  tie : Tie
  /-- Numbers whose first digit has this exponent are written without an exponent. -/
  positional : Int → Bool
  /-- A whole number is written with the fraction `.0` in positional form. -/
  pointed : Bool

namespace Layout

/-- Digits without an exponent, zeros filled in up to the point. -/
def plain (layout : Layout) (digits : List Char) (place : Int) : List Char :=
  let whole := (digits.length : Int) + place
  if 0 ≤ place then
    digits ++ List.replicate place.toNat '0' ++ (if layout.pointed then ['.', '0'] else [])
  else if 0 < whole then digits.take whole.toNat ++ '.' :: digits.drop whole.toNat
  else '0' :: '.' :: (List.replicate (-whole).toNat '0' ++ digits)

/-- One digit, the others after a point, and the exponent with its sign. -/
def scientific (digits : List Char) (top : Int) : List Char :=
  let point := if digits.length ≤ 1 then [] else '.' :: digits.drop 1
  let sign := if top < 0 then '-' else '+'
  digits.take 1 ++ point ++ 'e' :: sign :: Nat.toDigits 10 top.natAbs

/-- A decimal, set out positionally or with an exponent. -/
def decimal (layout : Layout) (d : Decimal) : List Char :=
  let digits := Nat.toDigits 10 d.digits
  let top := d.exponent + digits.length - 1
  if layout.positional top then layout.plain digits d.exponent else scientific digits top

end Layout

/-- The text of a finite number: its sign and its shortest digits. -/
def Binary64.write (layout : Layout) (x : Binary64) : List Char :=
  let sign := if x.isNegative then ['-'] else []
  let body :=
    if x.significand = 0 then layout.plain ['0'] 0 else layout.decimal (x.shortest layout.tie)
  sign ++ body

end FilterQuery
