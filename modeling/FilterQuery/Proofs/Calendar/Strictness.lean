/-
Which texts are taken for a date, and which of them are in the strict form.

A date is asked for as four digits, two digits and two digits with hyphens between them.
What is checked is that the text has ten bytes and that a lenient reader accepts it.

* **`Date.Written`** — what the lenient reader accepts: white space before each number, a
  sign before the year, months and days of one digit;
* **`Date.read?_eq_some_iff`** — it accepts this and nothing else;
* **`Date.Strict`** — the strict form;
* **`Date.Written.strict`**, **`Date.strict_iff_write_eq`** — within ten bytes, what has
  neither white space nor a sign is in the strict form, and so is what is printed;
* **`FieldType.read_eq_ok_iff_of_isTime`**, **`time_read_iff`** — what this means for a
  field that holds dates;
* **`time_read_padded`** — a text that is accepted and is not in the strict form.

Design notes.  Without white space and sign the three numbers have at most eight digits, and
ten bytes leave room for no less.  This is what the check relies on; white space and the sign
are what can stand in the place of missing zeros.
-/
import FilterQuery.FieldType
import FilterQuery.Proofs.Calendar.RoundTrip

namespace FilterQuery

/-! ### Numerals of a fixed length -/

theorem byteLength_eq_length {cs : List Char} (h : ∀ c ∈ cs, c.utf8Size = 1) :
    byteLength cs = cs.length := by
  induction cs with
  | nil => rfl
  | cons c cs ih =>
    obtain ⟨hc, hcs⟩ := List.forall_mem_cons.mp h
    rw [byteLength_eq_utf8Len] at ih ⊢
    rw [String.utf8Len_cons, ih hcs, hc, List.length_cons]

theorem byteLength_hyphen (cs : List Char) : byteLength ('-' :: cs) = byteLength cs + 1 := by
  show byteLength (['-'] ++ cs) = _
  rw [byteLength_append]
  exact Nat.add_comm _ _

namespace Numeral

theorem value_le_of_isDigit {c : Char} (h : c.isDigit = true) : c.toNat - '0'.toNat ≤ 9 := by
  have hrange : 48 ≤ c.toNat ∧ c.toNat ≤ 57 := Char.isDigit_iff_toNat.mp h
  show c.toNat - 48 ≤ 9
  omega

theorem utf8Size_of_isDigit {c : Char} (h : c.isDigit = true) : c.utf8Size = 1 := by
  have hrange : 48 ≤ c.toNat ∧ c.toNat ≤ 57 := Char.isDigit_iff_toNat.mp h
  rw [Char.utf8Size_eq_one_iff, UInt32.le_iff_toNat_le]
  exact Nat.le_trans hrange.2 (by decide)

theorem le_length_padded (width n : Nat) : width ≤ (padded width n).length := by
  rw [padded, List.length_append, List.length_replicate]
  omega

theorem byteLength_of_nat? {ds : List Char} {n : Nat} (h : nat? ds = some n) :
    byteLength ds = ds.length := by
  obtain ⟨-, hdigits, -⟩ := nat?_eq_some_iff.mp h
  exact byteLength_eq_length fun c hc => utf8Size_of_isDigit (hdigits c hc)

theorem ofDigitChars_cons_zero (c : Char) (cs : List Char) :
    Nat.ofDigitChars 10 (c :: cs) 0 =
      10 ^ cs.length * (c.toNat - '0'.toNat) + Nat.ofDigitChars 10 cs 0 := by
  rw [Nat.ofDigitChars_cons, Nat.mul_zero, Nat.zero_add, Nat.ofDigitChars_eq_ofDigitChars_zero]

theorem ofDigitChars_lt {ds : List Char} (h : ∀ c ∈ ds, c.isDigit = true) :
    Nat.ofDigitChars 10 ds 0 < 10 ^ ds.length := by
  induction ds with
  | nil => decide
  | cons c cs ih =>
    obtain ⟨hc, hcs⟩ := List.forall_mem_cons.mp h
    have hlt := ih hcs
    have hmul := Nat.mul_le_mul_left (10 ^ cs.length) (value_le_of_isDigit hc)
    rw [ofDigitChars_cons_zero, List.length_cons, Nat.pow_succ]
    omega

/-- Digits of the same number and value are the same. -/
theorem eq_of_ofDigitChars_eq {ds es : List Char} (hds : ∀ c ∈ ds, c.isDigit = true)
    (hes : ∀ c ∈ es, c.isDigit = true) (hlength : ds.length = es.length)
    (h : Nat.ofDigitChars 10 ds 0 = Nat.ofDigitChars 10 es 0) : ds = es := by
  induction ds generalizing es with
  | nil => exact (List.length_eq_zero_iff.mp hlength.symm).symm
  | cons c cs ih =>
    cases es with
    | nil => cases hlength
    | cons c' cs' =>
      obtain ⟨hc, hcs⟩ := List.forall_mem_cons.mp hds
      obtain ⟨hc', hcs'⟩ := List.forall_mem_cons.mp hes
      have hlen : cs.length = cs'.length := Nat.succ.inj hlength
      have hlt := ofDigitChars_lt hcs
      have hlt' := ofDigitChars_lt hcs'
      rw [ofDigitChars_cons_zero, ofDigitChars_cons_zero, ← hlen] at h
      rw [← hlen] at hlt'
      -- The first digit is the quotient, the value of the others the remainder.
      have hpos : 0 < 10 ^ cs.length := Nat.pow_pos (by decide)
      have hdiv := congrArg (· / 10 ^ cs.length) h
      have hmod := congrArg (· % 10 ^ cs.length) h
      simp only [Nat.mul_add_div hpos, Nat.mul_add_mod, Nat.div_eq_of_lt hlt,
        Nat.div_eq_of_lt hlt', Nat.mod_eq_of_lt hlt, Nat.mod_eq_of_lt hlt', Nat.add_zero]
        at hdiv hmod
      have hfirst : c = c' := by
        have hrange := Char.isDigit_iff_toNat.mp hc
        have hrange' := Char.isDigit_iff_toNat.mp hc'
        exact Char.toNat_inj.mp (by omega)
      rw [hfirst, ih hcs hcs' hlen hmod]

/-- **A numeral is its value, filled up with zeros to its own length.** -/
theorem padded_of_nat? {ds : List Char} {n : Nat} (h : nat? ds = some n) :
    padded ds.length n = ds := by
  obtain ⟨hne, hdigits, rfl⟩ := nat?_eq_some_iff.mp h
  have hlength := length_padded (List.length_pos_iff.mpr hne) (ofDigitChars_lt hdigits)
  obtain ⟨-, -, hvalue⟩ := nat?_eq_some_iff.mp
    (nat?_padded ds.length (Nat.ofDigitChars 10 ds 0))
  exact eq_of_ofDigitChars_eq isDigit_of_mem_padded hdigits hlength hvalue

end Numeral

/-! ### What the lenient reader accepts -/

namespace Calendar

/-- A year: at most four digits, or a sign and any number of digits. -/
inductive YearText : List Char → Int → Prop
  | plain {ds : List Char} {n : Nat} :
      Numeral.nat? ds = some n → ds.length ≤ 4 → YearText ds n
  | plus {ds : List Char} {n : Nat} : Numeral.nat? ds = some n → YearText ('+' :: ds) n
  | minus {ds : List Char} {n : Nat} : Numeral.nat? ds = some n → YearText ('-' :: ds) (-n)

theorem stops_isDigit_hyphen (cs : List Char) : Stops Char.isDigit ('-' :: cs) := by
  intro c hc
  cases hc
  rfl

theorem skipWhite_append {gap rest : List Char} (hgap : ∀ c ∈ gap, Text.isWhite c = true)
    (hrest : Stops Text.isWhite rest) : skipWhite (gap ++ rest) = rest :=
  (takeWhile_append_of_stops hgap hrest).2

theorem exists_gap (cs : List Char) :
    ∃ gap, (∀ c ∈ gap, Text.isWhite c = true) ∧ cs = gap ++ skipWhite cs :=
  ⟨cs.takeWhile Text.isWhite, fun c hc => List.all_eq_true.mp List.all_takeWhile c hc,
    List.takeWhile_append_dropWhile.symm⟩

theorem gap_eq_nil {gap : List Char} (hgap : ∀ c ∈ gap, Text.isWhite c = true)
    (hclean : ∀ c ∈ gap, Text.isWhite c = false) : gap = [] := by
  refine List.eq_nil_iff_forall_not_mem.mpr fun c hc => ?_
  have hwhite := hgap c hc
  rw [hclean c hc] at hwhite
  cases hwhite

/-- A numeral does not start with white space. -/
theorem stops_isWhite_numeral {ds : List Char} {n : Nat} (h : Numeral.nat? ds = some n)
    (rest : List Char) : Stops Text.isWhite (ds ++ rest) := by
  obtain ⟨hne, hdigits, -⟩ := Numeral.nat?_eq_some_iff.mp h
  obtain ⟨d, ds, rfl⟩ := List.exists_cons_of_ne_nil hne
  intro c hc
  cases hc
  exact Text.isWhite_of_isDigit (hdigits d List.mem_cons_self)

theorem YearText.stops_isWhite {y : List Char} {year : Int} (h : YearText y year)
    (rest : List Char) : Stops Text.isWhite (y ++ rest) := by
  cases h with
  | plain hn _ => exact stops_isWhite_numeral hn rest
  | plus _ =>
    intro c hc
    cases hc
    decide
  | minus _ =>
    intro c hc
    cases hc
    decide

theorem exists_of_shortNumber? {width n : Nat} {cs rest : List Char}
    (h : shortNumber? width cs = some (n, rest)) :
    ∃ ds, cs = ds ++ rest ∧ Numeral.nat? ds = some n ∧ ds.length ≤ width := by
  obtain ⟨n', hn, heq⟩ := Option.map_eq_some_iff.mp h
  cases heq
  have hprefix : (cs.take width).takeWhile Char.isDigit <+: cs :=
    (List.takeWhile_prefix _).trans (List.take_prefix _ _)
  refine ⟨_, (List.prefix_iff_eq_append.mp hprefix).symm, hn, ?_⟩
  exact Nat.le_trans (List.takeWhile_prefix _).length_le (List.length_take_le _ _)

theorem shortNumber?_append {width n : Nat} {ds rest : List Char}
    (hn : Numeral.nat? ds = some n) (hwidth : ds.length ≤ width)
    (hrest : Stops Char.isDigit rest) : shortNumber? width (ds ++ rest) = some (n, rest) := by
  obtain ⟨-, hdigits, -⟩ := Numeral.nat?_eq_some_iff.mp hn
  -- At most the digits are taken, because what follows them is none.
  have htake : (ds ++ rest).take width = ds ++ rest.take (width - ds.length) := by
    rw [List.take_append, List.take_of_length_le hwidth]
  have hstops : Stops Char.isDigit (rest.take (width - ds.length)) := by
    intro c hc
    refine hrest c ?_
    cases rest with
    | nil => simp at hc
    | cons c' rest =>
      cases hk : width - ds.length with
      | zero => simp [hk] at hc
      | succ k => simpa [hk] using hc
  rw [shortNumber?, htake, (takeWhile_append_of_stops hdigits hstops).1, hn, Option.map_some,
    List.drop_left]

theorem exists_of_longNumber? {n : Nat} {cs rest : List Char}
    (h : longNumber? cs = some (n, rest)) :
    ∃ ds, cs = ds ++ rest ∧ Numeral.nat? ds = some n := by
  obtain ⟨n', hn, heq⟩ := Option.map_eq_some_iff.mp h
  cases heq
  exact ⟨_, List.takeWhile_append_dropWhile.symm, hn⟩

theorem longNumber?_append {n : Nat} {ds rest : List Char} (hn : Numeral.nat? ds = some n)
    (hrest : Stops Char.isDigit rest) : longNumber? (ds ++ rest) = some (n, rest) := by
  obtain ⟨-, hdigits, -⟩ := Numeral.nat?_eq_some_iff.mp hn
  obtain ⟨htake, hdrop⟩ := takeWhile_append_of_stops hdigits hrest
  rw [longNumber?, htake, hdrop, hn, Option.map_some]

theorem exists_of_year? {year : Int} {cs rest : List Char} (h : year? cs = some (year, rest)) :
    ∃ y, cs = y ++ rest ∧ YearText y year := by
  rw [year?.eq_def] at h
  split at h
  · obtain ⟨⟨n, rest'⟩, hn, heq⟩ := Option.map_eq_some_iff.mp h
    cases heq
    obtain ⟨ds, rfl, hds⟩ := exists_of_longNumber? hn
    exact ⟨'-' :: ds, rfl, .minus hds⟩
  · obtain ⟨⟨n, rest'⟩, hn, heq⟩ := Option.map_eq_some_iff.mp h
    cases heq
    obtain ⟨ds, rfl, hds⟩ := exists_of_longNumber? hn
    exact ⟨'+' :: ds, rfl, .plus hds⟩
  · obtain ⟨⟨n, rest'⟩, hn, heq⟩ := Option.map_eq_some_iff.mp h
    cases heq
    obtain ⟨ds, rfl, hds, hwidth⟩ := exists_of_shortNumber? hn
    exact ⟨ds, rfl, .plain hds hwidth⟩

theorem year?_append {year : Int} {y rest : List Char} (h : YearText y year)
    (hrest : Stops Char.isDigit rest) : year? (y ++ rest) = some (year, rest) := by
  cases h with
  | plus hn => rw [List.cons_append, year?, longNumber?_append hn hrest, Option.map_some]
  | minus hn => rw [List.cons_append, year?, longNumber?_append hn hrest, Option.map_some]
  | plain hn hwidth =>
    have hshort := shortNumber?_append hn hwidth hrest
    -- A numeral starts with a digit, so there is no sign to be read.
    obtain ⟨hne, hdigits, -⟩ := Numeral.nat?_eq_some_iff.mp hn
    obtain ⟨c, cs, rfl⟩ := List.exists_cons_of_ne_nil hne
    have hdigit := hdigits c List.mem_cons_self
    rw [List.cons_append] at hshort ⊢
    rw [year?.eq_def]
    split
    · next heq =>
      cases heq
      cases hdigit
    · next heq =>
      cases heq
      cases hdigit
    · rw [hshort, Option.map_some]

theorem afterHyphen?_eq_some {cs rest : List Char} (h : afterHyphen? cs = some rest) :
    cs = '-' :: rest := by
  rw [afterHyphen?.eq_def] at h
  split at h
  · cases h
    rfl
  · cases h

end Calendar

namespace Date

/-- A text writes a date: year, month and day with hyphens between them, and white space in
the three gaps before the numbers. -/
inductive Written : List Char → Date → Prop
  | intro {gap year gap' month gap'' day : List Char} {d : Date} :
      (∀ c ∈ gap, Text.isWhite c = true) → Calendar.YearText year d.year →
      (∀ c ∈ gap', Text.isWhite c = true) → Numeral.nat? month = some d.month →
      month.length ≤ 2 →
      (∀ c ∈ gap'', Text.isWhite c = true) → Numeral.nat? day = some d.day → day.length ≤ 2 →
      Written (gap ++ (year ++ '-' :: (gap' ++ (month ++ '-' :: (gap'' ++ day))))) d

/-- **The lenient reader accepts what writes a date, and nothing else.** -/
theorem read?_eq_some_iff {cs : List Char} {d : Date} : read? cs = some d ↔ Written cs d := by
  constructor
  · intro h
    simp only [read?, readWith?, id, Option.bind_eq_bind, Option.bind_eq_some_iff] at h
    obtain ⟨⟨year, cs₁⟩, hyear, cs₂, hhyphen, ⟨month, cs₃⟩, hmonth, cs₄, hhyphen', ⟨day, cs₅⟩,
      hday, hend⟩ := h
    dsimp only at hhyphen hmonth hhyphen' hday hend
    split at hend
    · next hnil =>
      obtain ⟨rfl, rfl, rfl⟩ := ofParts?_eq_some_iff.mp hend
      obtain ⟨gap, hgap, hcs⟩ := Calendar.exists_gap cs
      obtain ⟨gap', hgap', hcs₂⟩ := Calendar.exists_gap cs₂
      obtain ⟨gap'', hgap'', hcs₄⟩ := Calendar.exists_gap cs₄
      obtain ⟨y, hy, hyeartext⟩ := Calendar.exists_of_year? hyear
      obtain ⟨m, hm, hmonthtext, hmwidth⟩ := Calendar.exists_of_shortNumber? hmonth
      obtain ⟨t, ht, hdaytext, htwidth⟩ := Calendar.exists_of_shortNumber? hday
      rw [hcs, hy, Calendar.afterHyphen?_eq_some hhyphen, hcs₂, hm,
        Calendar.afterHyphen?_eq_some hhyphen', hcs₄, ht, hnil, List.append_nil]
      exact .intro hgap hyeartext hgap' hmonthtext hmwidth hgap'' hdaytext htwidth
    · cases hend
  · rintro ⟨hgap, hyear, hgap', hmonth, hmwidth, hgap'', hday, htwidth⟩
    have hlast := Calendar.shortNumber?_append hday htwidth (stops_nil _)
    have hlastgap := Calendar.stops_isWhite_numeral hday []
    rw [List.append_nil] at hlast hlastgap
    simp only [read?, readWith?, id, Option.bind_eq_bind,
      Calendar.skipWhite_append hgap (hyear.stops_isWhite _),
      Calendar.year?_append hyear (Calendar.stops_isDigit_hyphen _), Option.bind_some,
      Calendar.afterHyphen?,
      Calendar.skipWhite_append hgap' (Calendar.stops_isWhite_numeral hmonth _),
      Calendar.shortNumber?_append hmonth hmwidth (Calendar.stops_isDigit_hyphen _),
      Calendar.skipWhite_append hgap'' hlastgap, hlast, if_true]
    exact ofParts?_eq_some_iff.mpr ⟨rfl, rfl, rfl⟩

/-! ### The strict form -/

/-- A date on four, two and two digits. -/
inductive Strict : List Char → Date → Prop
  | intro {year month day : List Char} {n : Nat} {d : Date} :
      Numeral.nat? year = some n → d.year = n → year.length = 4 →
      Numeral.nat? month = some d.month → month.length = 2 →
      Numeral.nat? day = some d.day → day.length = 2 →
      Strict (year ++ '-' :: (month ++ '-' :: day)) d

/-- There is white space in the text, or a sign at its start. -/
def isPadded (cs : List Char) : Bool :=
  cs.any Text.isWhite || cs.head? == some '+' || cs.head? == some '-'

theorem isPadded_eq_false_iff {cs : List Char} :
    isPadded cs = false ↔ (∀ c ∈ cs, Text.isWhite c = false) ∧
      cs.head? ≠ some '+' ∧ cs.head? ≠ some '-' := by
  simp only [isPadded, Bool.or_eq_false_iff, beq_eq_false_iff_ne, List.any_eq_false,
    Bool.not_eq_true, and_assoc]

variable {cs : List Char} {d : Date}

/-- The strict form has only digits and hyphens, and starts with a digit. -/
theorem Strict.not_isPadded (h : Strict cs d) : isPadded cs = false := by
  obtain ⟨hyear, -, -, hmonth, -, hday, -⟩ := h
  have hwhite : ∀ {ds : List Char} {n : Nat}, Numeral.nat? ds = some n →
      ∀ c ∈ ds, Text.isWhite c = false := fun hn c hc =>
    Text.isWhite_of_isDigit ((Numeral.nat?_eq_some_iff.mp hn).2.1 c hc)
  have hhyphen : Text.isWhite '-' = false := by decide
  rw [isPadded_eq_false_iff]
  constructor
  · refine List.forall_mem_append.mpr ⟨hwhite hyear, List.forall_mem_cons.mpr ⟨hhyphen, ?_⟩⟩
    exact List.forall_mem_append.mpr ⟨hwhite hmonth, List.forall_mem_cons.mpr
      ⟨hhyphen, hwhite hday⟩⟩
  · obtain ⟨hne, hdigits, -⟩ := Numeral.nat?_eq_some_iff.mp hyear
    obtain ⟨c, cs, rfl⟩ := List.exists_cons_of_ne_nil hne
    have hdigit := hdigits c List.mem_cons_self
    constructor
    · intro hsign
      cases hsign
      cases hdigit
    · intro hsign
      cases hsign
      cases hdigit

/-- In ten bytes without white space and sign there is room for the strict form only. -/
theorem Written.strict (h : Written cs d) (hsize : byteLength cs = 10)
    (hpadded : isPadded cs = false) : Strict cs d := by
  obtain ⟨hclean, hplus, hminus⟩ := isPadded_eq_false_iff.mp hpadded
  cases h with
  | @intro gap year gap' month gap'' day _ hgap hyear hgap' hmonth hmwidth hgap'' hday htwidth =>
    simp only [List.forall_mem_append, List.forall_mem_cons] at hclean
    obtain ⟨hclean₁, -, -, hclean₂, -, -, hclean₃, -⟩ := hclean
    obtain rfl := Calendar.gap_eq_nil hgap hclean₁
    obtain rfl := Calendar.gap_eq_nil hgap' hclean₂
    obtain rfl := Calendar.gap_eq_nil hgap'' hclean₃
    generalize hvalue : d.year = value at hyear
    cases hyear with
    | plus _ => exact absurd rfl hplus
    | minus _ => exact absurd rfl hminus
    | plain hn hwidth =>
      simp only [List.nil_append, byteLength_append, byteLength_hyphen,
        Numeral.byteLength_of_nat? hn, Numeral.byteLength_of_nat? hmonth,
        Numeral.byteLength_of_nat? hday] at hsize ⊢
      exact .intro hn hvalue (by omega) hmonth (by omega) hday (by omega)

theorem Strict.write_eq (h : Strict cs d) : d.write = cs := by
  cases h with
  | @intro year month day n _ hyear hvalue hylength hmonth hmlength hday htlength =>
    obtain ⟨-, hdigits, hn⟩ := Numeral.nat?_eq_some_iff.mp hyear
    have hlt := Numeral.ofDigitChars_lt hdigits
    have hy := Numeral.padded_of_nat? hyear
    have hm := Numeral.padded_of_nat? hmonth
    have ht := Numeral.padded_of_nat? hday
    rw [hn, hylength] at hlt
    rw [hylength] at hy
    rw [hmlength] at hm
    rw [htlength] at ht
    have hrange : 0 ≤ d.year ∧ d.year ≤ 9999 := by omega
    have habs : d.year.natAbs = n := by omega
    rw [write, Calendar.writeYear, if_pos hrange, habs, hy, hm, ht]

/-- A date is printed in the strict form, as far as ten bytes go. -/
theorem strict_iff_write_eq (hsize : byteLength cs = 10) : Strict cs d ↔ d.write = cs := by
  refine ⟨Strict.write_eq, ?_⟩
  rintro rfl
  have hmonth := d.month_le
  have hday := d.day_le
  rw [write, Calendar.writeYear] at hsize ⊢
  by_cases hrange : 0 ≤ d.year ∧ d.year ≤ 9999
  · rw [if_pos hrange]
    refine .intro (Numeral.nat?_padded _ _) (by omega) ?_ (Numeral.nat?_padded _ _) ?_
      (Numeral.nat?_padded _ _) ?_
    · exact Numeral.length_padded (by decide) (by omega)
    · exact Numeral.length_padded (by decide) (by omega)
    · exact Numeral.length_padded (by decide) (by omega)
  · -- With a sign the text has eleven bytes at least.
    have hsign : byteLength [if d.year < 0 then '-' else '+'] = 1 := by
      split <;> rfl
    have hylength := Numeral.le_length_padded 4 d.year.natAbs
    have hmlength := Numeral.le_length_padded 2 d.month
    have htlength := Numeral.le_length_padded 2 d.day
    rw [if_neg hrange, List.cons_append, ← List.singleton_append] at hsize
    simp only [byteLength_append, byteLength_hyphen, hsign,
      Numeral.byteLength_of_nat? (Numeral.nat?_padded _ _)] at hsize
    omega

end Date

namespace FieldType

variable {type : FieldType} {raw : String}

theorem read?_of_isTime (htime : type.isTime = true) (raw : String) :
    type.read? raw = (readDate? raw).map .date := by
  cases type with
  | time => rfl
  | nullableTime => rfl
  | _ => cases htime

theorem readDate?_eq_some_iff {d : Date} :
    readDate? raw = some d ↔ raw.utf8ByteSize = 10 ∧ Date.Written raw.toList d := by
  rw [readDate?, ← Date.read?_eq_some_iff]
  split
  · next hsize => simp [hsize]
  · next hsize => simp [hsize]

/-- A field that holds dates takes ten bytes that write a date, and nothing else. -/
theorem read_eq_ok_iff_of_isTime (htime : type.isTime = true) {v : Value} :
    type.read raw = .ok v ↔
      ∃ d, v = .date d ∧ raw.utf8ByteSize = 10 ∧ Date.Written raw.toList d := by
  rw [read_eq_ok_iff, read?_of_isTime htime, Option.map_eq_some_iff]
  refine exists_congr fun d => ?_
  rw [readDate?_eq_some_iff, and_comm, eq_comm]

/-- Whatever is refused, the type and the text are named. -/
theorem eq_mismatch_of_read {x : DataError} (h : type.read raw = .error x) :
    x = .mismatch type raw := by
  rw [read] at h
  split at h
  · cases h
  · cases h
    rfl

end FieldType

theorem Date.render_eq_iff {d : Date} {raw : String} :
    (Value.date d).render = raw ↔ d.write = raw.toList := by
  show String.ofList d.write = raw ↔ _
  constructor
  · rintro rfl
    rw [String.toList_ofList]
  · intro hwrite
    rw [hwrite, String.ofList_toList]

/-- **A field that holds dates takes ten bytes that write a date, and nothing else.**  What it
takes is in the strict form, or which is the same, is printed as it was written, exactly if
there is neither white space in it nor a sign at its start. -/
theorem time_read_iff (type : FieldType) (htime : type.isTime = true) (raw : String) :
    (∀ v, type.read raw = .ok v ↔
      ∃ d, v = .date d ∧ raw.utf8ByteSize = 10 ∧ Date.Written raw.toList d) ∧
    (∀ x, type.read raw = .error x → x = .mismatch type raw) ∧
    ∀ d, type.read raw = .ok (.date d) →
      (Date.Strict raw.toList d ↔ Date.isPadded raw.toList = false) ∧
      (Date.Strict raw.toList d ↔ (Value.date d).render = raw) := by
  refine ⟨fun v => FieldType.read_eq_ok_iff_of_isTime htime,
    fun x => FieldType.eq_mismatch_of_read, ?_⟩
  intro d hd
  obtain ⟨d', hd', hsize, hwritten⟩ := (FieldType.read_eq_ok_iff_of_isTime htime).mp hd
  cases hd'
  rw [← byteLength_toList] at hsize
  refine ⟨⟨Date.Strict.not_isPadded, hwritten.strict hsize⟩, ?_⟩
  rw [Date.strict_iff_write_eq hsize, Date.render_eq_iff]

/-- A date in the strict form is taken, and printed as it was written. -/
theorem time_read_plain :
    let d : Date := ⟨2023, 1, 2, by decide⟩
    FieldType.nullableTime.isTime = true ∧
      FieldType.nullableTime.read "2023-01-02" = .ok (.date d) ∧
      Date.Strict "2023-01-02".toList d ∧ (Value.date d).render = "2023-01-02" := by
  intro d
  have hread : FieldType.nullableTime.read "2023-01-02" = .ok (.date d) := by decide +kernel
  obtain ⟨-, -, hstrict⟩ := time_read_iff .nullableTime rfl "2023-01-02"
  obtain ⟨hpadded, hrender⟩ := hstrict d hread
  have hd := hpadded.mpr (by decide +kernel)
  exact ⟨rfl, hread, hd, hrender.mp hd⟩

/-- White space makes up for missing zeros, and so does a sign: both texts have ten bytes, are
taken for a date, and are printed in another way. -/
theorem time_read_padded :
    let d : Date := ⟨2023, 1, 2, by decide⟩
    let d' : Date := ⟨12345, 1, 2, by decide⟩
    (FieldType.time.read "  2023-1-2" = .ok (.date d) ∧ ¬ Date.Strict "  2023-1-2".toList d ∧
      (Value.date d).render = "2023-01-02") ∧
    FieldType.time.read "+12345-1-2" = .ok (.date d') ∧ ¬ Date.Strict "+12345-1-2".toList d' ∧
      (Value.date d').render = "+12345-01-02" := by
  intro d d'
  refine ⟨⟨by decide +kernel, ?_, by decide +kernel⟩, by decide +kernel, ?_, by decide +kernel⟩
  · intro hstrict
    have hpadded := hstrict.not_isPadded
    revert hpadded
    decide +kernel
  · intro hstrict
    have hpadded := hstrict.not_isPadded
    revert hpadded
    decide +kernel

end FilterQuery
