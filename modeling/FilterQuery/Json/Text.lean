/-
Strings in JSON texts.

* **`readString?`** — the string after an opening quote, and what follows its closing
  quote;
* **`writeString`** — a text as a JSON string;
* **`chars?`** — the characters of a list of code units, if all surrogates are paired;
* **`readString?_rest_lt`** — what follows is shorter than the text.

Design notes.  Reading goes in two steps.  The first resolves escapes into code units
and refuses what is malformed; the second pairs surrogates, and gives no text if one
stands alone.
-/
import FilterQuery.Json.Basic

namespace FilterQuery

namespace Json

/-- The value of a hexadecimal digit. -/
def hexDigit? (c : Char) : Option Nat :=
  if '0' ≤ c ∧ c ≤ '9' then some (c.toNat - '0'.toNat)
  else if 'a' ≤ c ∧ c ≤ 'f' then some (c.toNat - 'a'.toNat + 10)
  else if 'A' ≤ c ∧ c ≤ 'F' then some (c.toNat - 'A'.toNat + 10)
  else none

/-- The value of four hexadecimal digits. -/
def hex4? (a b c d : Char) : Option Nat :=
  match hexDigit? a, hexDigit? b, hexDigit? c, hexDigit? d with
  | some a, some b, some c, some d => some (((a * 16 + b) * 16 + c) * 16 + d)
  | _, _, _, _ => none

/-- The code unit that a one-letter escape stands for. -/
def shortEscape? (c : Char) : Option Nat :=
  match c with
  | '"' => some 0x22
  | '\\' => some 0x5C
  | '/' => some 0x2F
  | 'b' => some 0x08
  | 'f' => some 0x0C
  | 'n' => some 0x0A
  | 'r' => some 0x0D
  | 't' => some 0x09
  | _ => none

/-- One more code unit in front of what has been read. -/
def pushUnit (u : Option Nat) (r : Option (List Nat × List Char)) :
    Option (List Nat × List Char) :=
  match u, r with
  | some u, some (us, rest) => some (u :: us, rest)
  | _, _ => none

/-- The code units up to the closing quote, and what follows it. -/
def units? : List Char → Option (List Nat × List Char)
  | [] => none
  | '"' :: cs => some ([], cs)
  | '\\' :: 'u' :: a :: b :: c :: d :: cs => pushUnit (hex4? a b c d) (units? cs)
  | '\\' :: c :: cs => pushUnit (shortEscape? c) (units? cs)
  | c :: cs => pushUnit (if c.toNat < 0x20 then none else some c.toNat) (units? cs)

/-- The first half of a surrogate pair. -/
def isHighSurrogate (u : Nat) : Bool :=
  0xD800 ≤ u && u ≤ 0xDBFF

/-- The second half of a surrogate pair. -/
def isLowSurrogate (u : Nat) : Bool :=
  0xDC00 ≤ u && u ≤ 0xDFFF

/-- The characters of a list of code units; none if a surrogate stands alone. -/
def chars? : List Nat → Option (List Char)
  | [] => some []
  | [u] => if isHighSurrogate u || isLowSurrogate u then none else some [Char.ofNat u]
  | u :: v :: us =>
    if isHighSurrogate u then
      if isLowSurrogate v then
        (chars? us).map (Char.ofNat (0x10000 + (u - 0xD800) * 0x400 + (v - 0xDC00)) :: ·)
      else none
    else if isLowSurrogate u then none
    else (chars? (v :: us)).map (Char.ofNat u :: ·)

/-- The string after an opening quote, and what follows its closing quote. -/
def readString? (cs : List Char) : Option (JsonText × List Char) :=
  (units? cs).map fun r => ((chars? r.1).map String.ofList, r.2)

/-- A digit from 0 to 15 in lower-case hexadecimal. -/
def hexChar (n : Nat) : Char :=
  Nat.digitChar n

/-- A character inside a JSON string: only quotes, backslashes and control characters
are escaped. -/
def escapeChar (c : Char) : List Char :=
  match c with
  | '"' => ['\\', '"']
  | '\\' => ['\\', '\\']
  | '\n' => ['\\', 'n']
  | '\r' => ['\\', 'r']
  | '\t' => ['\\', 't']
  | c =>
    if c.toNat = 0x08 then ['\\', 'b']
    else if c.toNat = 0x0C then ['\\', 'f']
    else if c.toNat < 0x20 then
      ['\\', 'u', '0', '0', hexChar (c.toNat / 16), hexChar (c.toNat % 16)]
    else [c]

/-- A text as a JSON string.  What has no text is written as a surrogate on its own. -/
def writeString : JsonText → List Char
  | some s => '"' :: (s.toList.flatMap escapeChar ++ ['"'])
  | none => ['"', '\\', 'u', 'd', '8', '0', '0', '"']

theorem pushUnit_eq_some {u : Option Nat} {r : Option (List Nat × List Char)}
    {us : List Nat} {rest : List Char} (h : pushUnit u r = some (us, rest)) :
    ∃ us', r = some (us', rest) := by
  rw [pushUnit.eq_def] at h
  split at h
  · cases h
    exact ⟨_, rfl⟩
  · cases h

theorem units?_rest_lt {cs : List Char} {us : List Nat} {rest : List Char}
    (h : units? cs = some (us, rest)) : rest.length < cs.length := by
  fun_induction units? cs generalizing us with
  | case1 => cases h
  | case2 cs =>
    cases h
    exact Nat.lt_succ_self _
  | case3 a b c d cs ih =>
    obtain ⟨us', h'⟩ := pushUnit_eq_some h
    have := ih h'
    simp only [List.length_cons]
    omega
  | case4 c cs _ ih =>
    obtain ⟨us', h'⟩ := pushUnit_eq_some h
    have := ih h'
    simp only [List.length_cons]
    omega
  | case5 c cs _ _ _ ih =>
    obtain ⟨us', h'⟩ := pushUnit_eq_some h
    have := ih h'
    simp only [List.length_cons]
    omega

theorem readString?_rest_lt {cs : List Char} {s : JsonText} {rest : List Char}
    (h : readString? cs = some (s, rest)) : rest.length < cs.length := by
  rw [readString?, Option.map_eq_some_iff] at h
  obtain ⟨⟨us, rest'⟩, h, h'⟩ := h
  cases h'
  exact units?_rest_lt h

end Json

end FilterQuery
