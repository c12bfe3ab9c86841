/-
The fewest decimal digits that read back as a given number.

All decimals in an interval around a finite number round to it.  For one, two, … up
to seventeen digits the two neighbours of the number on the grid of that many digits
are tried; the first grid with a hit gives the digits, the nearer neighbour of two.

* **`Decimal`** — whole digits times a power of ten;
* **`shortest`** — the digits of a number that is finite and not zero;
* **`Tie`** — which neighbour is taken when both are equally near.
-/
import FilterQuery.Binary64.Basic

namespace FilterQuery

/-- The decimal `digits * 10 ^ exponent`. -/
structure Decimal where
  digits : Nat
  exponent : Int

/-- The choice between two equally near neighbours on a grid. -/
inductive Tie
  | up
  | even

namespace Binary64

/-- The exponent `k` with `10 ^ k ≤ num / den < 10 ^ (k + 1)`. -/
def floorLog10 (num den : Nat) : Int :=
  let k : Int := ((Nat.toDigits 10 num).length : Int) - (Nat.toDigits 10 den).length
  if den * 10 ^ k.toNat ≤ num * 10 ^ (-k).toNat then k else k - 1

/-- A number within its interval: `centre` lies between `low` and `high`, all three in
quarters of the unit of the number, and the ends belong to the interval if `closed`. -/
structure Interval where
  low : Nat
  centre : Nat
  high : Nat
  closed : Bool

/-- The interval of what rounds to a finite number that is not zero.  Below a power of
two the numbers lie twice as dense, unless it is the least normal number. -/
def interval (x : Binary64) : Interval :=
  let m := x.significand
  let dense := m = 2 ^ (52 : Nat) ∧ 2 ^ (53 : Nat) ≤ x.magnitude
  { low := if dense then 4 * m - 1 else 4 * m - 2
    centre := 4 * m
    high := 4 * m + 2
    closed := m % 2 == 0 }

/-- The point `a` lies in the interval, whose quarters measure `quarter`. -/
def Interval.contains (i : Interval) (quarter a : Nat) : Bool :=
  if i.closed then i.low * quarter ≤ a && a ≤ i.high * quarter
  else i.low * quarter < a && a < i.high * quarter

/-- The neighbour of the centre on a grid that lies in the interval, if one does.
`quarter` and `step` measure a quarter and a step of the grid in a common unit. -/
def Interval.hit? (i : Interval) (tie : Tie) (quarter step : Nat) : Option Nat :=
  let centre := i.centre * quarter
  let below := centre / step
  match i.contains quarter (below * step), i.contains quarter ((below + 1) * step) with
  | true, true =>
    let left := centre - below * step
    let right := (below + 1) * step - centre
    if left < right then some below
    else if right < left then some (below + 1)
    else
      match tie with
      | .up => some (below + 1)
      | .even => some (if below % 2 = 0 then below else below + 1)
  | true, false => some below
  | false, true => some (below + 1)
  | false, false => none

/-- The decimal on the grid of `n` digits that reads back as the number, if there is
one; `top` is the exponent of its first digit. -/
def onGrid? (x : Binary64) (tie : Tie) (top : Int) (n : Nat) : Option Decimal :=
  let place := top - n + 1
  let binary := x.exponent - 2
  let quarter := 2 ^ binary.toNat * 10 ^ (-place).toNat
  let step := 10 ^ place.toNat * 2 ^ (-binary).toNat
  -- A neighbour above may have one digit more, and is then a power of ten.
  (x.interval.hit? tie quarter step).map fun k =>
    if k = 10 ^ n then ⟨1, place + n⟩ else ⟨k, place⟩

/-- The shortest decimal that reads back as a finite number that is not zero. -/
def shortest (x : Binary64) (tie : Tie) : Decimal :=
  let top := floorLog10 x.num x.den
  ((List.range 17).findSome? fun i => x.onGrid? tie top (i + 1)).getD ⟨x.num / x.den, 0⟩

end Binary64

end FilterQuery
