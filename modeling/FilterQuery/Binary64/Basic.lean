/-
Binary floating-point numbers of 64 bits.

A number is its 64 bits: a sign, eleven bits of exponent and 52 bits of fraction.  A
finite one is, up to its sign, `significand * 2 ^ exponent`.  Whole numbers carry all
arithmetic, so nothing is rounded but where a result is put into the format.

* **`ofRatio`** — the number nearest to a quotient of whole numbers; of two equally
  near ones, the one with an even significand;
* **`mul`**, **`div`** — the magnitude of a product and of a quotient, rounded once.

Design notes.  Read as a natural number, the bits below the sign grow with the
magnitude, infinity included.  Adding the rounded significand to the bits of the
exponent therefore carries a significand that was rounded up to a power of two into
the next exponent by itself.
-/
import FilterQuery.Numeral

namespace FilterQuery

/-- A floating-point number of 64 bits, given by its bits. -/
structure Binary64 where
  bits : UInt64
deriving DecidableEq

namespace Binary64

/-- The bits below the sign, as a natural number. -/
def magnitude (x : Binary64) : Nat :=
  x.bits.toNat % 2 ^ (63 : Nat)

/-- The sign bit is set. -/
def isNegative (x : Binary64) : Bool :=
  2 ^ (63 : Nat) ≤ x.bits.toNat

/-- The magnitude of infinity. -/
def infinite : Nat := 2047 * 2 ^ (52 : Nat)

/-- Neither infinite nor without a value. -/
def isFinite (x : Binary64) : Bool :=
  x.magnitude < infinite

/-- The number with the given sign and the given bits below it. -/
def pack (negative : Bool) (magnitude : Nat) : Binary64 :=
  ⟨UInt64.ofNat (if negative then 2 ^ (63 : Nat) + magnitude else magnitude)⟩

/-- The whole number that, times a power of two, is the magnitude of a finite number. -/
def significand (x : Binary64) : Nat :=
  if x.magnitude < 2 ^ (52 : Nat) then x.magnitude
  else 2 ^ (52 : Nat) + x.magnitude % 2 ^ (52 : Nat)

/-- The exponent of the power of two that belongs to the significand. -/
def exponent (x : Binary64) : Int :=
  (max 1 (x.magnitude / 2 ^ (52 : Nat)) : Nat) - 1075

/-- The whole number nearest to a quotient, the even one of two equally near ones. -/
def roundDiv (num den : Nat) : Nat :=
  if 2 * (num % den) < den ∨ 2 * (num % den) = den ∧ num / den % 2 = 0 then num / den
  else num / den + 1

/-- The exponent `k` with `2 ^ k ≤ num / den < 2 ^ (k + 1)`. -/
def floorLog2 (num den : Nat) : Int :=
  let k : Int := (num.log2 : Int) - den.log2
  if den * 2 ^ k.toNat ≤ num * 2 ^ (-k).toNat then k else k - 1

/-- The bits below the sign of the number nearest to a quotient. -/
def nearest (num den : Nat) : Nat :=
  if num = 0 then 0
  else
    let unit := max (floorLog2 num den - 52) (-1074)
    let whole := roundDiv (num * 2 ^ (-unit).toNat) (den * 2 ^ unit.toNat)
    -- The leading bit of `whole` counts as one more step of the exponent.
    min ((unit + 1074).toNat * 2 ^ (52 : Nat) + whole) infinite

/-- The number nearest to a quotient of whole numbers, with a sign. -/
def ofRatio (negative : Bool) (num den : Nat) : Binary64 :=
  pack negative (nearest num den)

/-- The numerator of the magnitude, over a power of two. -/
def num (x : Binary64) : Nat :=
  x.significand * 2 ^ x.exponent.toNat

/-- The power of two below the magnitude. -/
def den (x : Binary64) : Nat :=
  2 ^ (-x.exponent).toNat

/-- The magnitude of a product of finite numbers, rounded. -/
def mul (x y : Binary64) : Binary64 :=
  ofRatio false (x.num * y.num) (x.den * y.den)

/-- The magnitude of a quotient of finite numbers, rounded. -/
def div (x y : Binary64) : Binary64 :=
  ofRatio false (x.num * y.den) (x.den * y.num)

end Binary64

end FilterQuery
