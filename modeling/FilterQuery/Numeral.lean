/-
Decimal numerals of whole numbers.

* **`nat?`**, **`int?`**, **`int64?`** — reading: one or more ASCII digits, the same
  after at most one sign, and the same within the range of 64-bit integers;
* **`ofInt`**, **`padded`** — writing, and writing with leading zeros to a width;
* **`nat?_toDigits`** — a written numeral reads back;
* **`nat?_eq_some_iff`** — what is read is a non-empty list of digits, and its value.

Design notes.  In the whole library, powers are those of the core library, whatever other
instances a module has in scope.  A literal exponent is ascribed its type for the same reason.
-/
namespace FilterQuery

attribute [scoped instance (100000)] instPowNat

namespace Numeral

/-- The number written by one or more decimal digits; leading zeros count for nothing. -/
def nat? (cs : List Char) : Option Nat :=
  if cs ≠ [] ∧ cs.all Char.isDigit = true then some (Nat.ofDigitChars 10 cs 0) else none

/-- The number written by at most one sign and one or more decimal digits. -/
def int? : List Char → Option Int
  | '+' :: cs => (nat? cs).map Int.ofNat
  | '-' :: cs => (nat? cs).map fun n => -Int.ofNat n
  | cs => (nat? cs).map Int.ofNat

/-- A whole number of 64 bits: a numeral whose value lies in the range. -/
def int64? (s : String) : Option Int64 :=
  match int? s.toList with
  | some n => if -2 ^ (63 : Nat) ≤ n ∧ n < 2 ^ (63 : Nat) then some (Int64.ofInt n) else none
  | none => none

/-- The numeral of a whole number, without leading zeros. -/
def ofInt (n : Int) : List Char :=
  if n < 0 then '-' :: Nat.toDigits 10 n.natAbs else Nat.toDigits 10 n.natAbs

/-- The numeral of a natural number, filled up with leading zeros to a width. -/
def padded (width n : Nat) : List Char :=
  List.replicate (width - (Nat.toDigits 10 n).length) '0' ++ Nat.toDigits 10 n

theorem nat?_eq_some_iff {cs : List Char} {n : Nat} :
    nat? cs = some n ↔ cs ≠ [] ∧ (∀ c ∈ cs, c.isDigit = true) ∧ Nat.ofDigitChars 10 cs 0 = n := by
  have hall : cs.all Char.isDigit = true ↔ ∀ c ∈ cs, c.isDigit = true := List.all_eq_true
  rw [nat?, ← hall, ← and_assoc]
  split
  · next h => simp [h]
  · next h => exact ⟨(fun hn => nomatch hn), fun hn => absurd hn.1 h⟩

theorem nat?_toDigits (n : Nat) : nat? (Nat.toDigits 10 n) = some n := by
  rw [nat?_eq_some_iff]
  refine ⟨Nat.toDigits_ne_nil, fun c hc => ?_, Nat.ofDigitChars_ten_toDigits⟩
  exact Nat.isDigit_of_mem_toDigits (by decide) (by decide) hc

end Numeral

end FilterQuery
