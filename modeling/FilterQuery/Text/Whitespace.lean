/-
White space and blank texts.

Two notions of white space are in use.  The query language separates its tokens by
four ASCII characters only; names and the numbers of a date are trimmed by the
property `White_Space` of Unicode.

* **`isSpace`** — the separators of the query language;
* **`isWhite`** — the Unicode property;
* **`isWhite_of_isDigit`** — a digit is no white space;
* **`isBlank`** — a text of white space only, the empty text included.
-/
import FilterQuery.Text.Ranges

namespace FilterQuery.Text

/-- Space, tab, carriage return and line feed separate tokens. -/
def isSpace (c : Char) : Bool :=
  c == ' ' || c == '\t' || c == '\r' || c == '\n'

/-- The Unicode property `White_Space`. -/
def whiteRanges : Ranges :=
  [(0x9, 0xD), (0x20, 0x20), (0x85, 0x85), (0xA0, 0xA0), (0x1680, 0x1680), (0x2000, 0x200A),
    (0x2028, 0x2029), (0x202F, 0x202F), (0x205F, 0x205F), (0x3000, 0x3000)]

/-- White space in the sense of Unicode; the zero width space U+200B is none. -/
def isWhite (c : Char) : Bool :=
  whiteRanges.contains c.toNat

theorem isWhite_of_isDigit {c : Char} (h : c.isDigit = true) : isWhite c = false := by
  have hrange : 48 ≤ c.toNat ∧ c.toNat ≤ 57 := Char.isDigit_iff_toNat.mp h
  have hranges : ∀ r ∈ whiteRanges, r.2 < 48 ∨ 57 < r.1 := by decide
  rw [Bool.eq_false_iff]
  intro hwhite
  obtain ⟨r, hr, hle, hge⟩ := Ranges.contains_iff.mp hwhite
  have := hranges r hr
  omega

/-- Nothing is left of the text once white space is trimmed off its ends. -/
def isBlank (s : String) : Bool :=
  s.toList.all isWhite

end FilterQuery.Text
