/-
Numbers in JSON texts.

* **`JsonNumber`** — what a number counts for: a whole number, or a floating-point
  number;
* **`JsonNumber.read?`** — what the characters of a number count for; nothing if the
  number is too large;
* **`JsonNumber.ofInt`**, **`JsonNumber.ofFloat`** — the characters of a number.

Design notes.  A number without point and exponent is whole, as long as it fits into 64
bits; a negative zero is not.  For any other number the digits are gathered into a
significand of 64 bits.  Digits of the whole part that no longer fit only count as
powers of ten, digits of the fraction that no longer fit are dropped.  The
significand is rounded, and then multiplied or divided by a power of ten, which is
rounded as well.  The result may thus lie a unit off the nearest number.
-/
import FilterQuery.Binary64.Layout
import FilterQuery.Binary64.Reader

namespace FilterQuery

/-- What a number in a JSON text counts for. -/
inductive JsonNumber
  | int (n : Int)
  | float (x : Binary64)
deriving DecidableEq

namespace JsonNumber

/-- The significand after the digits of the whole part, and the number of digits that
did not fit into it. -/
def gatherWhole (n : Nat) : List Char → Nat × Nat
  | [] => (n, 0)
  | c :: cs =>
    let n' := Nat.ofDigitChars 10 [c] n
    if n' < 2 ^ (64 : Nat) then gatherWhole n' cs else (n, cs.length + 1)

/-- The significand after the digits of the fraction, and the number of digits that
went into it. -/
def gatherFraction (n : Nat) : List Char → Nat × Nat
  | [] => (n, 0)
  | c :: cs =>
    let n' := Nat.ofDigitChars 10 [c] n
    if n' < 2 ^ (64 : Nat) then
      let (m, k) := gatherFraction n' cs
      (m, k + 1)
    else (n, 0)

/-- A power of ten, rounded. -/
def tenPow (k : Nat) : Binary64 :=
  Binary64.ofRatio false (10 ^ k) 1

/-- The magnitude of a number times a power of ten, rounded at every step; nothing if it
is too large. -/
def scale (f : Binary64) (e : Int) : Option Binary64 :=
  if e.natAbs ≤ 308 then
    if 0 ≤ e then
      let x := f.mul (tenPow e.natAbs)
      if x.isFinite then some x else none
    else some (f.div (tenPow e.natAbs))
  else if f.significand = 0 then some f  -- nothing is left to scale
  else if 0 ≤ e then none
  else scale (f.div (tenPow 308)) (e + 308)
termination_by e.natAbs

/-- The number with a sign, if it is not too large. -/
def signed (negative : Bool) (x : Option Binary64) : Option JsonNumber :=
  x.map fun x => float (Binary64.pack negative x.magnitude)

/-- A number without point and exponent. -/
def ofWhole? (negative : Bool) (digits : List Char) : Option JsonNumber :=
  let (n, skipped) := gatherWhole 0 digits
  let rounded := Binary64.ofRatio false n 1
  if skipped ≠ 0 then signed negative (scale rounded skipped)
  else if !negative then some (int n)
  else if 0 < n ∧ n ≤ 2 ^ (63 : Nat) then some (int (-n))
  else signed true (some rounded)

/-- What the characters of a number count for. -/
def read? (lexeme : String) : Option JsonNumber :=
  let (negative, body) := splitSign lexeme.toList
  let whole := body.takeWhile Char.isDigit
  if body.dropWhile Char.isDigit = [] then ofWhole? negative whole
  else
    let (_, fraction, rest) := splitDigits body
    let (n, skipped) := gatherWhole 0 whole
    let (n, used) := gatherFraction n fraction
    match readExponent? rest with
    | some e =>
      signed negative (scale (Binary64.ofRatio false n 1) ((skipped : Int) - used + e))
    | none => none

/-- Floating-point numbers have the shortest digits, the even one of two equally near
ones.  From `0.00001` up to sixteen digits before the point they are written without
an exponent, but always with a fraction. -/
def layout : Layout where
  tie := .even
  positional := fun top => -5 ≤ top && top ≤ 15
  pointed := true

/-- The characters of a whole number. -/
def ofInt (n : Int) : String :=
  String.ofList (Numeral.ofInt n)

/-- The characters of a finite floating-point number. -/
def ofFloat (x : Binary64) : String :=
  String.ofList (x.write layout)

end JsonNumber

end FilterQuery
