/-
Reading a decimal as a floating-point number.

* **`readDecimal?`** — the grammar: a sign, digits with a point among them, an
  exponent; only the digits are needed, on either side of the point;
* **`Decimal.round`** — the nearest number of 64 bits, infinity included;
* **`Binary64.read?`** — the number that a text writes, if it is finite.

Design notes.  An exponent may be as long as the text.  A decimal whose first digit
stands beyond the 310th place is infinite and one whose first digit stands below the
330th is zero, so the powers of ten that are computed stay small.
-/
import FilterQuery.Binary64.Shortest
import FilterQuery.Numeral

namespace FilterQuery

/-- A sign in front of a numeral, and what follows it. -/
def splitSign : List Char → Bool × List Char
  | '-' :: cs => (true, cs)
  | '+' :: cs => (false, cs)
  | cs => (false, cs)

/-- Digits on both sides of an optional point, at least one in all, and the rest. -/
def splitDigits (cs : List Char) : List Char × List Char × List Char :=
  let whole := cs.takeWhile Char.isDigit
  match cs.dropWhile Char.isDigit with
  | '.' :: rest => (whole, rest.takeWhile Char.isDigit, rest.dropWhile Char.isDigit)
  | rest => (whole, [], rest)

/-- The exponent at the end of a decimal: nothing, or a mark, a sign and digits. -/
def readExponent? : List Char → Option Int
  | [] => some 0
  | c :: cs => if c = 'e' ∨ c = 'E' then Numeral.int? cs else none

/-- The decimal that a text writes, with its sign. -/
def readDecimal? (cs : List Char) : Option (Bool × Decimal) :=
  let (negative, body) := splitSign cs
  let (whole, fraction, rest) := splitDigits body
  match Numeral.nat? (whole ++ fraction), readExponent? rest with
  | some digits, some e => some (negative, ⟨digits, e - fraction.length⟩)
  | _, _ => none

/-- The number of 64 bits nearest to a decimal. -/
def Decimal.round (negative : Bool) (d : Decimal) : Binary64 :=
  let top := d.exponent + (Nat.toDigits 10 d.digits).length
  if d.digits = 0 then Binary64.pack negative 0
  else if 310 < top then Binary64.pack negative Binary64.infinite
  else if top < -330 then Binary64.pack negative 0
  else Binary64.ofRatio negative (d.digits * 10 ^ d.exponent.toNat) (10 ^ (-d.exponent).toNat)

/-- The finite number that a text writes. -/
def Binary64.read? (s : String) : Option Binary64 :=
  match readDecimal? s.toList with
  | some (negative, d) =>
    let x := d.round negative
    if x.isFinite then some x else none
  | none => none

end FilterQuery
