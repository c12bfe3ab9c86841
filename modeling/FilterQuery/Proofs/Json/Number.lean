/-
Whole numbers in JSON.

* **`JsonScalar.legible_ofInt`** — a whole number is a number of JSON, and ends where its
  digits end;
* **`JsonNumber.read?_ofInt`** — it counts for what it was written from, as long as it fits
  into 64 bits.

Design notes.  A number of JSON has no leading zeros, so what is written must not start with
one unless it is zero itself (`Numeral.toDigits_eq_cons`).
-/
import FilterQuery.Json.Number
import FilterQuery.Proofs.Json.RoundTrip

namespace FilterQuery

namespace Numeral

theorem isDigit_of_mem_toDigits {n : Nat} : ∀ c ∈ Nat.toDigits 10 n, c.isDigit = true :=
  fun _ hc => Nat.isDigit_of_mem_toDigits (by decide) (by decide) hc

theorem eq_zero_of_digitChar : ∀ n < 10, n.digitChar = '0' → n = 0 := by
  decide

/-- A numeral starts with a digit, and with a zero only if it is zero. -/
theorem toDigits_eq_cons (n : Nat) :
    ∃ c cs, Nat.toDigits 10 n = c :: cs ∧ c.isDigit = true ∧ (c = '0' → n = 0) := by
  induction n using Nat.strongRecOn with
  | ind n ih =>
    by_cases hn : n < 10
    · have hdigits : Nat.toDigits 10 n = [n.digitChar] := Nat.toDigits_of_lt_base hn
      refine ⟨n.digitChar, [], hdigits, ?_, eq_zero_of_digitChar n hn⟩
      exact isDigit_of_mem_toDigits (n := n) _ (by simp [hdigits])
    · obtain ⟨c, cs, hcs, hdigit, hzero⟩ := ih (n / 10) (by omega)
      refine ⟨c, cs ++ [(n % 10).digitChar], ?_, hdigit, ?_⟩
      · rw [Nat.toDigits_of_base_le (by decide) (by omega), hcs, List.cons_append]
      · intro hc
        have hquotient := hzero hc
        omega

end Numeral

namespace Json

theorem stops_isDigit {rest : List Char} (h : Stops continuesNumber rest) :
    Stops Char.isDigit rest := by
  intro c hc
  have hnot := h c hc
  simp only [continuesNumber, Bool.or_eq_false_iff] at hnot
  exact hnot.1.1.1

theorem digits?_append {ds rest : List Char} (hne : ds ≠ []) (hds : ∀ c ∈ ds, c.isDigit = true)
    (hrest : Stops Char.isDigit rest) : digits? (ds ++ rest) = some (ds, rest) := by
  obtain ⟨htake, hdrop⟩ := takeWhile_append_of_stops hds hrest
  rw [digits?, htake, hdrop, if_neg hne]

/-- The digits of a number are its whole part. -/
theorem wholePart?_toDigits (n : Nat) {rest : List Char} (hrest : Stops Char.isDigit rest) :
    wholePart? (Nat.toDigits 10 n ++ rest) = some (Nat.toDigits 10 n, rest) := by
  by_cases hn : n = 0
  · subst hn
    rfl
  · obtain ⟨c, cs, hcs, -, hzero⟩ := Numeral.toDigits_eq_cons n
    have hdigits := digits?_append Nat.toDigits_ne_nil
      (Numeral.isDigit_of_mem_toDigits (n := n)) hrest
    rw [hcs, List.cons_append] at hdigits ⊢
    rw [wholePart?.eq_def]
    split
    · next heq =>
      cases heq
      exact absurd (hzero rfl) hn
    · exact hdigits

theorem unsigned?_toDigits (n : Nat) {rest : List Char} (hrest : Stops continuesNumber rest) :
    unsigned? (Nat.toDigits 10 n ++ rest) = some (Nat.toDigits 10 n, rest) := by
  have hfraction : fractionPart? rest = some ([], rest) := by
    rw [fractionPart?.eq_def]
    split
    · have hpoint := hrest '.' rfl
      cases hpoint
    · rfl
  have hexponent : exponentPart? rest = some ([], rest) := by
    rw [exponentPart?.eq_def]
    split
    · next c cs =>
      have hc := hrest c rfl
      simp only [continuesNumber, Bool.or_eq_false_iff, beq_eq_false_iff_ne] at hc
      rw [if_neg (by simp [hc.1.2, hc.2])]
    · rfl
  simp [unsigned?, wholePart?_toDigits n (stops_isDigit hrest), hfraction, hexponent]

/-- What starts with a minus sign or a digit can only be a number. -/
theorem piece?_of_number {c : Char} (hc : c = '-' ∨ c.isDigit = true) (cs : List Char) :
    piece? (c :: cs) =
      (number? (c :: cs)).map fun r => (.scalar (.number (String.ofList r.1)), r.2) := by
  rw [piece?.eq_def]
  split
  case h_11 => rfl
  all_goals
    next heq =>
      cases heq
      simp at hc

theorem number?_ofInt (n : Int) {rest : List Char} (hrest : Stops continuesNumber rest) :
    number? (Numeral.ofInt n ++ rest) = some (Numeral.ofInt n, rest) := by
  rw [Numeral.ofInt]
  split
  · show (unsigned? (Nat.toDigits 10 n.natAbs ++ rest)).map _ = _
    rw [unsigned?_toDigits _ hrest]
    rfl
  · -- A digit is no sign.
    obtain ⟨c, cs, hcs, hdigit, -⟩ := Numeral.toDigits_eq_cons n.natAbs
    have hunsigned := unsigned?_toDigits n.natAbs hrest
    rw [hcs, List.cons_append] at hunsigned ⊢
    rw [number?.eq_def]
    split
    · next heq =>
      cases heq
      cases hdigit
    · exact hunsigned

end Json

/-- **A whole number is a number of JSON**, and ends where its digits end. -/
theorem JsonScalar.legible_ofInt (n : Int) : (number (JsonNumber.ofInt n)).Legible := by
  intro rest hrest
  have hnumber := Json.number?_ofInt n hrest
  have hhead : ∃ c cs, Numeral.ofInt n = c :: cs ∧ (c = '-' ∨ c.isDigit = true) := by
    rw [Numeral.ofInt]
    split
    · exact ⟨'-', _, rfl, .inl rfl⟩
    · obtain ⟨c, cs, hcs, hdigit, -⟩ := Numeral.toDigits_eq_cons n.natAbs
      exact ⟨c, cs, hcs, .inr hdigit⟩
  obtain ⟨c, cs, hcs, hc⟩ := hhead
  rw [write, JsonNumber.ofInt, String.toList_ofList]
  rw [hcs, List.cons_append] at hnumber ⊢
  rw [Json.piece?_of_number hc, hnumber]
  rfl

/-! ### What a whole number counts for -/

namespace JsonNumber

theorem le_ofDigitChars (cs : List Char) (n : Nat) : n ≤ Nat.ofDigitChars 10 cs n := by
  induction cs generalizing n with
  | nil => exact Nat.le_refl n
  | cons c cs ih =>
    have hrest := ih (10 * n + (c.toNat - '0'.toNat))
    rw [Nat.ofDigitChars_cons]
    omega

/-- As long as the value fits, every digit goes into the significand. -/
theorem gatherWhole_eq {cs : List Char} {n : Nat}
    (h : Nat.ofDigitChars 10 cs n < 2 ^ (64 : Nat)) :
    gatherWhole n cs = (Nat.ofDigitChars 10 cs n, 0) := by
  induction cs generalizing n with
  | nil => rfl
  | cons c cs ih =>
    have hstep : Nat.ofDigitChars 10 (c :: cs) n =
        Nat.ofDigitChars 10 cs (Nat.ofDigitChars 10 [c] n) := by
      rw [Nat.ofDigitChars_cons, Nat.ofDigitChars_cons, Nat.ofDigitChars_nil]
    rw [hstep] at h ⊢
    have hfits := Nat.lt_of_le_of_lt (le_ofDigitChars cs _) h
    rw [gatherWhole, if_pos hfits, ih h]

theorem ofWhole?_toDigits {n : Nat} (h : n < 2 ^ (64 : Nat)) :
    ofWhole? false (Nat.toDigits 10 n) = some (int n) := by
  rw [ofWhole?, gatherWhole_eq (by rwa [Nat.ofDigitChars_ten_toDigits]),
    Nat.ofDigitChars_ten_toDigits]
  rfl

theorem ofWhole?_negative {n : Nat} (hpos : 0 < n) (h : n ≤ 2 ^ (63 : Nat)) :
    ofWhole? true (Nat.toDigits 10 n) = some (int (-n)) := by
  have hfits : n < 2 ^ (64 : Nat) := by omega
  rw [ofWhole?, gatherWhole_eq (by rwa [Nat.ofDigitChars_ten_toDigits]),
    Nat.ofDigitChars_ten_toDigits]
  simp only [ne_eq, not_true_eq_false, if_false, Bool.not_true, Bool.false_eq_true]
  rw [if_pos ⟨hpos, h⟩]

theorem splitSign_ofInt (n : Int) :
    splitSign (Numeral.ofInt n) = (decide (n < 0), Nat.toDigits 10 n.natAbs) := by
  by_cases hn : n < 0
  · rw [Numeral.ofInt, if_pos hn, decide_eq_true hn]
    rfl
  · obtain ⟨c, cs, hcs, hdigit, -⟩ := Numeral.toDigits_eq_cons n.natAbs
    rw [Numeral.ofInt, if_neg hn, decide_eq_false hn, hcs, splitSign.eq_def]
    split
    · next heq =>
      cases heq
      cases hdigit
    · next heq =>
      cases heq
      cases hdigit
    · rfl

/-- Behind the sign there are digits only, so the number is whole. -/
theorem read?_eq_ofWhole? (n : Int) :
    read? (ofInt n) = ofWhole? (decide (n < 0)) (Nat.toDigits 10 n.natAbs) := by
  obtain ⟨htake, hdrop⟩ := takeWhile_append_of_stops
    (Numeral.isDigit_of_mem_toDigits (n := n.natAbs)) (stops_nil Char.isDigit)
  rw [List.append_nil] at htake hdrop
  rw [read?, ofInt, String.toList_ofList, splitSign_ofInt]
  dsimp only
  rw [if_pos hdrop, htake]

/-- **A whole number of 64 bits counts for itself.** -/
theorem read?_ofInt {n : Int} (hlow : -2 ^ (63 : Nat) ≤ n) (hhigh : n < 2 ^ (63 : Nat)) :
    read? (ofInt n) = some (int n) := by
  rw [read?_eq_ofWhole?]
  by_cases hn : n < 0
  · have hvalue : -(n.natAbs : Int) = n := by omega
    rw [decide_eq_true hn, ofWhole?_negative (by omega) (by omega), hvalue]
  · have hvalue : (n.natAbs : Int) = n := by omega
    rw [decide_eq_false hn, ofWhole?_toDigits (by omega), hvalue]

end JsonNumber

end FilterQuery
