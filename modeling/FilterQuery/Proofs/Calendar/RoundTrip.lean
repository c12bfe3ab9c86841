/-
What is written of a date reads back.

* **`Numeral.nat?_padded`** — a numeral filled up with zeros reads back;
* **`Calendar.year?_writeYear`** — so does a year, with or without a sign;
* **`Date.readWith?_write`** — and so does a date, whatever white space may be skipped
  between its parts.

Design notes.  A date is written without white space, so skipping it changes nothing.  All
that is asked of the gap before a hyphen is that it leaves other characters alone.
-/
import FilterQuery.Calendar.Printer
import FilterQuery.Calendar.Reader
import FilterQuery.Proofs.Token.Piece
import Mathlib.Data.List.TakeWhile

namespace FilterQuery

namespace Numeral

theorem isDigit_of_mem_padded {width n : Nat} : ∀ c ∈ padded width n, c.isDigit = true := by
  intro c hc
  rw [padded, List.mem_append] at hc
  rcases hc with hc | hc
  · rw [(List.mem_replicate.mp hc).2]
    rfl
  · exact Nat.isDigit_of_mem_toDigits (by decide) (by decide) hc

theorem padded_ne_nil (width n : Nat) : padded width n ≠ [] := by
  rw [padded]
  intro hnil
  exact Nat.toDigits_ne_nil (List.append_eq_nil_iff.mp hnil).2

theorem nat?_padded (width n : Nat) : nat? (padded width n) = some n := by
  rw [nat?_eq_some_iff]
  refine ⟨padded_ne_nil width n, isDigit_of_mem_padded, ?_⟩
  rw [padded, Nat.ofDigitChars_append, Nat.ofDigitChars_replicate_zero, Nat.mul_zero,
    Nat.ofDigitChars_ten_toDigits]

theorem length_padded {width n : Nat} (hwidth : 0 < width) (h : n < 10 ^ width) :
    (padded width n).length = width := by
  have hlength := (Nat.length_toDigits_le_iff (by decide : 1 < 10) hwidth).mpr h
  rw [padded, List.length_append, List.length_replicate]
  omega

end Numeral

namespace Calendar

theorem skipWhite_cons {c : Char} (h : Text.isWhite c = false) (cs : List Char) :
    skipWhite (c :: cs) = c :: cs := by
  simp [skipWhite, h]

theorem shortNumber?_padded {width n : Nat} (hwidth : 0 < width) (h : n < 10 ^ width)
    (rest : List Char) : shortNumber? width (Numeral.padded width n ++ rest) = some (n, rest) := by
  have hlength := Numeral.length_padded hwidth h
  have htake : (Numeral.padded width n ++ rest).take width = Numeral.padded width n := by
    rw [List.take_left' hlength]
  have hdigits : (Numeral.padded width n).takeWhile Char.isDigit = Numeral.padded width n :=
    List.takeWhile_eq_self_iff.mpr Numeral.isDigit_of_mem_padded
  rw [shortNumber?, htake, hdigits, Numeral.nat?_padded, Option.map_some, hlength,
    List.drop_left' hlength]

theorem longNumber?_padded (width n : Nat) {rest : List Char} (hrest : Stops Char.isDigit rest) :
    longNumber? (Numeral.padded width n ++ rest) = some (n, rest) := by
  obtain ⟨htake, hdrop⟩ := takeWhile_append_of_stops Numeral.isDigit_of_mem_padded hrest
  rw [longNumber?, htake, hdrop, Numeral.nat?_padded, Option.map_some]

/-- **A year reads back**, with or without a sign. -/
theorem year?_writeYear (year : Int) {rest : List Char} (hrest : Stops Char.isDigit rest) :
    year? (writeYear year ++ rest) = some (year, rest) := by
  rw [writeYear]
  by_cases hyear : 0 ≤ year ∧ year ≤ 9999
  · have hvalue : (year.natAbs : Int) = year := by omega
    have hfits : year.natAbs < 10 ^ (4 : Nat) := by omega
    have hshort := shortNumber?_padded (by decide : 0 < 4) hfits rest
    rw [if_pos hyear]
    -- A numeral starts with a digit, so there is no sign to be read.
    obtain ⟨c, cs, hcs⟩ := List.exists_cons_of_ne_nil (Numeral.padded_ne_nil 4 year.natAbs)
    have hdigit := Numeral.isDigit_of_mem_padded c (hcs ▸ List.mem_cons_self)
    rw [hcs, List.cons_append] at hshort ⊢
    rw [year?.eq_def]
    split
    · next heq =>
      cases heq
      cases hdigit
    · next heq =>
      cases heq
      cases hdigit
    · rw [hshort, Option.map_some, hvalue]
  · rw [if_neg hyear]
    by_cases hneg : year < 0
    · have hvalue : -(year.natAbs : Int) = year := by omega
      rw [if_pos hneg, List.cons_append, year?, longNumber?_padded 4 year.natAbs hrest,
        Option.map_some, hvalue]
    · have hvalue : (year.natAbs : Int) = year := by omega
      rw [if_neg hneg, List.cons_append, year?, longNumber?_padded 4 year.natAbs hrest,
        Option.map_some, hvalue]

/-- A written year does not start with white space. -/
theorem skipWhite_writeYear (year : Int) (rest : List Char) :
    skipWhite (writeYear year ++ rest) = writeYear year ++ rest := by
  obtain ⟨c, cs, hcs⟩ := List.exists_cons_of_ne_nil (Numeral.padded_ne_nil 4 year.natAbs)
  have hdigit := Numeral.isDigit_of_mem_padded c (hcs ▸ List.mem_cons_self)
  rw [writeYear]
  split
  · rw [hcs, List.cons_append]
    exact skipWhite_cons (Text.isWhite_of_isDigit hdigit) _
  · split
    · exact skipWhite_cons (by decide) _
    · exact skipWhite_cons (by decide) _

/-- A written month or day reads back, without white space before it. -/
theorem shortNumber?_skipWhite {n : Nat} (h : n < 100) (rest : List Char) :
    shortNumber? 2 (skipWhite (Numeral.padded 2 n ++ rest)) = some (n, rest) := by
  have hshort := shortNumber?_padded (by decide : 0 < 2) h rest
  obtain ⟨c, cs, hcs⟩ := List.exists_cons_of_ne_nil (Numeral.padded_ne_nil 2 n)
  have hdigit := Numeral.isDigit_of_mem_padded c (hcs ▸ List.mem_cons_self)
  rw [hcs, List.cons_append] at hshort ⊢
  rw [skipWhite_cons (Text.isWhite_of_isDigit hdigit), hshort]

theorem daysIn_le (year : Int) (month : Nat) : daysIn year month ≤ 31 := by
  rw [daysIn.eq_def]
  split
  case h_12 => split <;> decide
  all_goals decide

end Calendar

namespace Date

theorem month_le (d : Date) : d.month ≤ 12 := by
  obtain ⟨-, -, hday, hdays⟩ := d.isDay
  exact (Calendar.daysIn_pos_iff.mp (Nat.lt_of_lt_of_le hday hdays)).2

theorem day_le (d : Date) : d.day ≤ 31 :=
  Nat.le_trans d.isDay.2.2.2 (Calendar.daysIn_le d.year d.month)

/-- **A date reads back**, whatever may be skipped before a hyphen and at the end, as long as
the hyphen itself is not. -/
theorem readWith?_write {gap : List Char → List Char} (hgap : ∀ cs, gap ('-' :: cs) = '-' :: cs)
    (hend : gap [] = []) (d : Date) : readWith? gap d.write = some d := by
  have hstops : ∀ cs, Stops Char.isDigit ('-' :: cs) := by
    intro cs c hc
    cases hc
    rfl
  have hmonth := d.month_le
  have hday := d.day_le
  have hlast := Calendar.shortNumber?_skipWhite (by omega : d.day < 100) []
  rw [List.append_nil] at hlast
  rw [readWith?, write, Calendar.skipWhite_writeYear, Calendar.year?_writeYear _ (hstops _)]
  simp only [Option.bind_eq_bind, Option.bind_some, hgap, Calendar.afterHyphen?,
    Calendar.shortNumber?_skipWhite (by omega : d.month < 100), hlast, hend, if_true]
  exact ofParts?_eq_some_iff.mpr ⟨rfl, rfl, rfl⟩

theorem readLoose?_write (d : Date) : readLoose? d.write = some d :=
  readWith?_write (Calendar.skipWhite_cons (by decide)) rfl d

end Date

end FilterQuery
