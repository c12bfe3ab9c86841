/-
Writing quoted words.

Any text can be written as a quoted word, with any of the three delimiters: a backslash
is written twice, and the delimiter with a backslash before it.

* **`Delimiter`** — one of the characters that open and close a quoted word;
* **`quoteWith`** — a text between delimiters, its escapes put in;
* **`splitQuoted_escapeWith`** — the word ends where it was made to end;
* **`unescape_escapeWith`** — and says what was put in;
* **`cuts_quoteWith`** — so it is cut off as one lexeme, whatever follows it.
-/
import FilterQuery.Proofs.Token.Cutting

namespace FilterQuery

/-- A character that opens and closes quoted words. -/
structure Delimiter where
  char : Char
  isMark : isQuoteMark char = true

namespace Delimiter

/-- The double quote. -/
def double : Delimiter := ⟨'"', rfl⟩

/-- The single quote. -/
def single : Delimiter := ⟨'\x27', rfl⟩

/-- The back quote. -/
def back : Delimiter := ⟨'\x60', rfl⟩

theorem char_cases (d : Delimiter) : d.char = '"' ∨ d.char = '\x27' ∨ d.char = '\x60' := by
  have h := d.isMark
  simp only [isQuoteMark, Bool.or_eq_true, beq_iff_eq] at h
  tauto

theorem char_ne_backslash (d : Delimiter) : d.char ≠ '\\' := by
  rcases d.char_cases with h | h | h <;> rw [h] <;> decide

end Delimiter

/-- A text with every backslash and every delimiter escaped. -/
def escapeWith (d : Char) (cs : List Char) : List Char :=
  cs.flatMap fun c => if c = '\\' ∨ c = d then ['\\', c] else [c]

/-- A text as a quoted word. -/
def quoteWith (d : Delimiter) (s : String) : String :=
  String.ofList (d.char :: (escapeWith d.char s.toList ++ [d.char]))

theorem splitQuoted_cons {d c : Char} (hb : c ≠ '\\') (hd : c ≠ d) (cs : List Char) :
    splitQuoted d (c :: cs) = (splitQuoted d cs).push [c] := by
  rw [splitQuoted.eq_4 _ _ _ (fun h _ => hb h) (fun _ _ h _ => hb h), if_neg hd]

theorem unescape_cons {d c : Char} (hb : c ≠ '\\') (cs : List Char) :
    unescape d (c :: cs) = c :: unescape d cs := by
  rw [unescape.eq_2 _ _ _ (fun _ _ h _ => hb h)]

/-- The escaped text ends at the first delimiter after it. -/
theorem splitQuoted_escapeWith {d : Char} (hd : d ≠ '\\') (cs rest : List Char) :
    splitQuoted d (escapeWith d cs ++ d :: rest) = .closed (escapeWith d cs) rest := by
  induction cs with
  | nil =>
    show splitQuoted d (d :: rest) = .closed [] rest
    rw [splitQuoted.eq_4 _ _ _ (fun h _ => hd h) (fun _ _ h _ => hd h), if_pos rfl]
  | cons c cs ih =>
    rw [escapeWith, List.flatMap_cons, ← escapeWith]
    by_cases hc : c = '\\' ∨ c = d
    · -- An escaped character is passed over together with its backslash.
      rw [if_pos hc]
      show splitQuoted d ('\\' :: c :: (escapeWith d cs ++ d :: rest)) = _
      rw [splitQuoted, ih]
      rfl
    · rw [if_neg hc]
      obtain ⟨hb, hd'⟩ := not_or.mp hc
      show splitQuoted d (c :: (escapeWith d cs ++ d :: rest)) = _
      rw [splitQuoted_cons hb hd', ih]
      rfl

theorem unescape_escapeWith (d : Char) (cs : List Char) : unescape d (escapeWith d cs) = cs := by
  induction cs with
  | nil => rfl
  | cons c cs ih =>
    rw [escapeWith, List.flatMap_cons, ← escapeWith]
    by_cases hc : c = '\\' ∨ c = d
    · rw [if_pos hc]
      show unescape d ('\\' :: c :: escapeWith d cs) = _
      rw [unescape, if_pos hc.symm, ih]
    · rw [if_neg hc]
      show unescape d (c :: escapeWith d cs) = _
      rw [unescape_cons (not_or.mp hc).1, ih]

theorem cut_delimiter (d : Delimiter) (cs : List Char) : cut d.char cs = cutQuoted d.char cs := by
  rcases d.char_cases with h | h | h <;> rw [h] <;> rfl

/-- **A quoted word is cut off as one lexeme**, whatever follows it. -/
theorem cuts_quoteWith (d : Delimiter) (s : String) (rest : List Char) :
    Cuts ((quoteWith d s).toList ++ rest) [.word .quoted s] rest := by
  have htext : (quoteWith d s).toList ++ rest =
      d.char :: (escapeWith d.char s.toList ++ d.char :: rest) := by
    simp [quoteWith]
  have hsplit := splitQuoted_escapeWith d.char_ne_backslash s.toList rest
  have hcut : cut d.char (escapeWith d.char s.toList ++ d.char :: rest) =
      .ok ⟨.word .quoted s, byteLength (escapeWith d.char s.toList) + 2, rest⟩ := by
    rw [cut_delimiter, cutQuoted, hsplit]
    simp only [unescape_escapeWith, String.ofList_toList]
  rw [htext]
  exact Cuts.single hcut rfl

end FilterQuery
