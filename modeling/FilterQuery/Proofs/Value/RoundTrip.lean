/-
What is printed of a whole number or of a date reads back, and which texts are whole numbers.

* **`Numeral.Signed`** — at most one sign and one or more digits, and the number that they
  write;
* **`Numeral.int?_eq_some_iff`** — these are the texts that are read as a whole number;
* **`Numeral.int64?_eq_some_iff`** — within 64 bits, no number is lost and none is added;
* **`Numeral.signed_ofInt`** — what is printed of a whole number is such a text;
* **`Date.byteLength_write`** — what is printed of a date with a year of at most four digits
  has the ten bytes that are asked for;
* **`read_render_eq`** — so both read back, and everything that is no whole number of 64 bits
  is refused.

Design notes.  The text is compared with a form (`Signed`) and not with what is printed, since
a number may be written with any number of leading zeros and is printed with none.
-/
import FilterQuery.Proofs.Calendar.Strictness

namespace FilterQuery

/-! ### Whole numbers -/

namespace Numeral

/-- One or more decimal digits. -/
def IsDigits (ds : List Char) : Prop :=
  ds ≠ [] ∧ ∀ c ∈ ds, c.isDigit = true

/-- At most one sign before one or more digits, and the number that they write. -/
inductive Signed : List Char → Int → Prop
  | plain {ds : List Char} : IsDigits ds → Signed ds (Nat.ofDigitChars 10 ds 0)
  | plus {ds : List Char} : IsDigits ds → Signed ('+' :: ds) (Nat.ofDigitChars 10 ds 0)
  | minus {ds : List Char} : IsDigits ds → Signed ('-' :: ds) (-(Nat.ofDigitChars 10 ds 0 : Int))

variable {cs ds : List Char} {n : Int}

theorem nat?_of_isDigits (h : IsDigits ds) : nat? ds = some (Nat.ofDigitChars 10 ds 0) :=
  nat?_eq_some_iff.mpr ⟨h.1, h.2, rfl⟩

theorem isDigits_of_nat? {n : Nat} (h : nat? ds = some n) :
    IsDigits ds ∧ Nat.ofDigitChars 10 ds 0 = n := by
  obtain ⟨hne, hdigits, hvalue⟩ := nat?_eq_some_iff.mp h
  exact ⟨⟨hne, hdigits⟩, hvalue⟩

/-- Digits start with no sign, so they are read as they are. -/
theorem int?_of_isDigits (h : IsDigits ds) : int? ds = some (Nat.ofDigitChars 10 ds 0 : Int) := by
  obtain ⟨c, ds, rfl⟩ := List.exists_cons_of_ne_nil h.1
  have hdigit : c.isDigit = true := h.2 c List.mem_cons_self
  rw [int?.eq_def]
  split
  · next heq =>
    obtain ⟨rfl, -⟩ := List.cons.inj heq
    simp at hdigit
  · next heq =>
    obtain ⟨rfl, -⟩ := List.cons.inj heq
    simp at hdigit
  · rw [nat?_of_isDigits h]
    rfl

/-- **A whole number is read from a signed numeral**, and from nothing else. -/
theorem int?_eq_some_iff : int? cs = some n ↔ Signed cs n := by
  constructor
  · intro h
    rw [int?.eq_def] at h
    split at h
    · obtain ⟨k, hk, rfl⟩ := Option.map_eq_some_iff.mp h
      obtain ⟨hds, rfl⟩ := isDigits_of_nat? hk
      exact .plus hds
    · obtain ⟨k, hk, rfl⟩ := Option.map_eq_some_iff.mp h
      obtain ⟨hds, rfl⟩ := isDigits_of_nat? hk
      exact .minus hds
    · obtain ⟨k, hk, rfl⟩ := Option.map_eq_some_iff.mp h
      obtain ⟨hds, rfl⟩ := isDigits_of_nat? hk
      exact .plain hds
  · rintro (hds | hds | hds)
    · exact int?_of_isDigits hds
    · rw [int?, nat?_of_isDigits hds]
      rfl
    · rw [int?, nat?_of_isDigits hds]
      rfl

/-- **A whole number of 64 bits is read from a signed numeral with its value.** -/
theorem int64?_eq_some_iff {s : String} {n : Int64} :
    int64? s = some n ↔ Signed s.toList n.toInt := by
  rw [int64?, ← int?_eq_some_iff]
  split
  · next m hm =>
    rw [hm, Option.some_inj]
    constructor
    · intro h
      split at h
      · next hrange =>
        obtain rfl := Option.some_inj.mp h
        exact (Int64.toInt_ofInt_of_le hrange.1 hrange.2).symm
      · next => simp at h
    · rintro rfl
      rw [if_pos ⟨n.le_toInt, n.toInt_lt⟩, Int64.ofInt_toInt]
  · next hnone => simp [hnone]

/-- What is printed of a whole number is a signed numeral with its value. -/
theorem signed_ofInt (n : Int) : Signed (ofInt n) n := by
  have hdigits := isDigits_of_nat? (nat?_toDigits n.natAbs)
  rw [ofInt]
  split
  · next hneg =>
    have hsigned := Signed.minus hdigits.1
    rwa [hdigits.2, show -(n.natAbs : Int) = n by omega] at hsigned
  · next hpos =>
    have hsigned := Signed.plain hdigits.1
    rwa [hdigits.2, show (n.natAbs : Int) = n by omega] at hsigned

end Numeral

/-! ### Dates -/

namespace Date

/-- A date with a year of at most four digits is printed on ten bytes. -/
theorem byteLength_write {d : Date} (hlow : 0 ≤ d.year) (hhigh : d.year ≤ 9999) :
    byteLength d.write = 10 := by
  have hmonth := d.month_le
  have hday := d.day_le
  have hylength :=
    Numeral.length_padded (by decide : 0 < 4) (by omega : d.year.natAbs < 10 ^ (4 : Nat))
  have hmlength := Numeral.length_padded (by decide : 0 < 2) (by omega : d.month < 10 ^ (2 : Nat))
  have htlength := Numeral.length_padded (by decide : 0 < 2) (by omega : d.day < 10 ^ (2 : Nat))
  rw [write, Calendar.writeYear, if_pos ⟨hlow, hhigh⟩]
  simp only [byteLength_append, byteLength_hyphen,
    Numeral.byteLength_of_nat? (Numeral.nat?_padded _ _), hylength, hmlength, htlength]

theorem written_write (d : Date) : Written d.write d :=
  read?_eq_some_iff.mp (readWith?_write (fun _ => rfl) rfl d)

end Date

/-! ### Fields -/

namespace FieldType

theorem read_int_eq_ok_iff {raw : String} {v : Value} :
    int.read raw = .ok v ↔ ∃ n, v = .int n ∧ Numeral.Signed raw.toList n.toInt := by
  rw [read_eq_ok_iff]
  show (Numeral.int64? raw).map Value.int = some v ↔ _
  rw [Option.map_eq_some_iff]
  refine exists_congr fun n => ?_
  rw [Numeral.int64?_eq_some_iff, and_comm, eq_comm]

/-- A date that is printed on ten bytes reads back. -/
theorem read_render_date {type : FieldType} (htime : type.isTime = true) {d : Date}
    (hlow : 0 ≤ d.year) (hhigh : d.year ≤ 9999) :
    type.read (Value.date d).render = .ok (.date d) := by
  have htext : (Value.date d).render.toList = d.write := by
    rw [Value.render, String.toList_ofList]
  refine (read_eq_ok_iff_of_isTime htime).mpr ⟨d, rfl, ?_, ?_⟩
  · rw [← byteLength_toList, htext, Date.byteLength_write hlow hhigh]
  · rw [htext]
    exact d.written_write

end FieldType

/-- **What is printed of a whole number or of a date reads back.**  Every number of 64 bits
does, and every date with a year from 0 to 9999.  A text is read as a number of 64 bits exactly
if it is a signed numeral, with any number of leading zeros, and has the value of this number;
every other text is refused with the type and the text named. -/
theorem read_render_eq :
    (∀ n : Int64, FieldType.int.read (Value.int n).render = .ok (.int n)) ∧
    (∀ type : FieldType, type.isTime = true → ∀ d : Date, 0 ≤ d.year → d.year ≤ 9999 →
      type.read (Value.date d).render = .ok (.date d)) ∧
    ∀ raw : String,
      (∀ n : Int64, FieldType.int.read raw = .ok (.int n) ↔
        Numeral.Signed raw.toList n.toInt) ∧
      ((¬ ∃ n, Numeral.Signed raw.toList n ∧ -2 ^ (63 : Nat) ≤ n ∧ n ≤ 2 ^ (63 : Nat) - 1) →
        FieldType.int.read raw = .error (.mismatch .int raw)) := by
  refine ⟨fun n => ?_, fun type htime d => FieldType.read_render_date htime, fun raw => ⟨?_, ?_⟩⟩
  · refine FieldType.read_int_eq_ok_iff.mpr ⟨n, rfl, ?_⟩
    rw [Value.render, String.toList_ofList]
    exact Numeral.signed_ofInt n.toInt
  · intro n
    rw [FieldType.read_int_eq_ok_iff]
    constructor
    · rintro ⟨m, hm, hsigned⟩
      obtain rfl := Value.int.inj hm
      exact hsigned
    · intro hsigned
      exact ⟨n, rfl, hsigned⟩
  · intro hnone
    cases hread : FieldType.int.read raw with
    | error x => rw [FieldType.eq_mismatch_of_read hread]
    | ok v =>
      obtain ⟨n, -, hsigned⟩ := FieldType.read_int_eq_ok_iff.mp hread
      have hlow := n.le_toInt
      have hhigh := n.toInt_lt
      exact absurd ⟨n.toInt, hsigned, hlow, by omega⟩ hnone

/-- The least number of 64 bits, the leap day of the year 0, the greatest number with a sign and
leading zeros, and the first number beyond it. -/
theorem read_render_extremes :
    let leapDay : Date := ⟨0, 2, 29, by decide⟩
    let greatest := "+009223372036854775807"
    let beyond := "9223372036854775808"
    FieldType.int.read (Value.int Int64.minValue).render = .ok (.int Int64.minValue) ∧
    (FieldType.nullableTime.isTime = true ∧ 0 ≤ leapDay.year ∧ leapDay.year ≤ 9999 ∧
      FieldType.nullableTime.read (Value.date leapDay).render = .ok (.date leapDay)) ∧
    (Numeral.Signed greatest.toList Int64.maxValue.toInt ∧
      FieldType.int.read greatest = .ok (.int Int64.maxValue)) ∧
    (¬ ∃ n, Numeral.Signed beyond.toList n ∧ -2 ^ (63 : Nat) ≤ n ∧ n ≤ 2 ^ (63 : Nat) - 1) ∧
      FieldType.int.read beyond = .error (.mismatch .int beyond) := by
  intro leapDay greatest beyond
  obtain ⟨hint, hdate, hraw⟩ := read_render_eq
  have hgreatest : Numeral.Signed greatest.toList Int64.maxValue.toInt :=
    Numeral.int?_eq_some_iff.mp (by decide +kernel)
  have hbeyond : ¬ ∃ n, Numeral.Signed beyond.toList n ∧
      -2 ^ (63 : Nat) ≤ n ∧ n ≤ 2 ^ (63 : Nat) - 1 := by
    rintro ⟨n, hsigned, -, hle⟩
    have hvalue : Numeral.int? beyond.toList = some 9223372036854775808 := by decide +kernel
    rw [Numeral.int?_eq_some_iff.mpr hsigned, Option.some_inj] at hvalue
    omega
  refine ⟨hint _, ⟨rfl, by decide, by decide, ?_⟩, ⟨hgreatest, ?_⟩, hbeyond, ?_⟩
  · exact hdate .nullableTime rfl leapDay (by decide) (by decide)
  · exact ((hraw greatest).1 _).mpr hgreatest
  · exact (hraw beyond).2 hbeyond

end FilterQuery
