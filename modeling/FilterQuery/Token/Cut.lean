/-
Cutting the first token off a text.

* **`cut`** — the first token of a text that is not empty, its length in bytes, and
  the text that follows it;
* **`Lexeme.ofWord`** — what a word without delimiters is;
* **`splitQuoted`**, **`unescape`** — where a quoted word ends, and what it says;
* **`cut_rest_le`** — what follows is shorter than the text.

Design notes.  A token is as long as it can be: blanks and words run up to the first
character that cannot belong to them.  A delimiter opens a quoted word only at the
start of a token; inside a word it is a character like any other.
-/
import FilterQuery.Text.Whitespace
import FilterQuery.Token.Basic

namespace FilterQuery

/-- The characters of operators and parentheses, which end a word. -/
def isOperatorChar (c : Char) : Bool :=
  c == '=' || c == '>' || c == '<' || c == '!' || c == '(' || c == ')' || c == '%'

/-- The characters that open and close a quoted word. -/
def isQuoteMark (c : Char) : Bool :=
  c == '"' || c == '\x27' || c == '\x60'

/-- A character that continues a word without delimiters. -/
def isWordChar (c : Char) : Bool :=
  !(Text.isSpace c || isOperatorChar c)

/-- The length of a text in bytes. -/
def byteLength (cs : List Char) : Nat :=
  cs.foldl (fun n c => n + c.utf8Size) 0

/-- A word is a number if it starts with a digit, or with a point and a digit. -/
def beginsNumber : List Char → Bool
  | '.' :: d :: _ => d.isDigit
  | d :: _ => d.isDigit
  | [] => false

/-- What a word without delimiters is: a number, a connective in any case, or a symbol. -/
def Lexeme.ofWord (w : List Char) : Except Fault Lexeme :=
  if beginsNumber w then
    if 1 < w.count '.' then .error (.number (String.ofList w))
    else .ok (.word .number (String.ofList w))
  else if w.map Char.toLower = ['a', 'n', 'd'] then .ok (.connect .and)
  else if w.map Char.toLower = ['o', 'r'] then .ok (.connect .or)
  else .ok (.word .symbol (String.ofList w))

/-- How the text after an opening delimiter goes on. -/
inductive QuotedEnd
  /-- The quoted text with its escapes, and what follows the closing delimiter. -/
  | closed (raw rest : List Char)
  | unclosed
  | dangling

/-- The same, with more quoted text in front. -/
def QuotedEnd.push (front : List Char) : QuotedEnd → QuotedEnd
  | closed raw rest => closed (front ++ raw) rest
  | unclosed => unclosed
  | dangling => dangling

/-- The text up to the first delimiter that no backslash escapes. -/
def splitQuoted (delimiter : Char) : List Char → QuotedEnd
  | [] => .unclosed
  | ['\\'] => .dangling
  | '\\' :: c :: cs => (splitQuoted delimiter cs).push ['\\', c]
  | c :: cs => if c = delimiter then .closed [] cs else (splitQuoted delimiter cs).push [c]

/-- A backslash before the delimiter or another backslash is dropped; before any other
character it stays. -/
def unescape (delimiter : Char) : List Char → List Char
  | '\\' :: c :: cs =>
    if c = delimiter ∨ c = '\\' then c :: unescape delimiter cs
    else '\\' :: c :: unescape delimiter cs
  | c :: cs => c :: unescape delimiter cs
  | [] => []

/-- A token cut off a text: its lexeme, its length in bytes, and what follows. -/
structure Cut where
  lexeme : Lexeme
  size : Nat
  rest : List Char

/-- A comparison that is longer by one if an equals sign follows. -/
def cutCompare (short long : CompareOp) : List Char → Cut
  | '=' :: cs => ⟨.compare long, 2, cs⟩
  | cs => ⟨.compare short, 1, cs⟩

/-- The comparison after an exclamation mark. -/
def cutNotEqual : List Char → Except Fault Cut
  | '=' :: cs => .ok ⟨.compare .ne, 2, cs⟩
  | c :: _ => .error (.notEqual (String.ofList ['!', c]))
  | [] => .error (.notEqual "!")

/-- The quoted word after an opening delimiter. -/
def cutQuoted (delimiter : Char) (cs : List Char) : Except Fault Cut :=
  match splitQuoted delimiter cs with
  | .closed raw rest =>
    .ok ⟨.word .quoted (String.ofList (unescape delimiter raw)), byteLength raw + 2, rest⟩
  | .unclosed => .error (.unclosed delimiter)
  | .dangling => .error .dangling

/-- The blank that starts with a space. -/
def cutBlank (c : Char) (cs : List Char) : Cut :=
  ⟨.blank, byteLength (c :: cs.takeWhile Text.isSpace), cs.dropWhile Text.isSpace⟩

/-- The word that starts with a character. -/
def cutWord (c : Char) (cs : List Char) : Except Fault Cut :=
  let w := c :: cs.takeWhile isWordChar
  match Lexeme.ofWord w with
  | .ok lexeme => .ok ⟨lexeme, byteLength w, cs.dropWhile isWordChar⟩
  | .error fault => .error fault

/-- The first token of the text that starts with `c` and goes on with `cs`. -/
def cut (c : Char) (cs : List Char) : Except Fault Cut :=
  match c with
  | '=' => .ok ⟨.compare .eq, 1, cs⟩
  | '%' => .ok ⟨.compare .contains, 1, cs⟩
  | '(' => .ok ⟨.opening, 1, cs⟩
  | ')' => .ok ⟨.closing, 1, cs⟩
  | '>' => .ok (cutCompare .gt .ge cs)
  | '<' => .ok (cutCompare .lt .le cs)
  | '!' => cutNotEqual cs
  | c =>
    if Text.isSpace c then .ok (cutBlank c cs)
    else if isQuoteMark c then cutQuoted c cs
    else cutWord c cs

/-- Where a fault is reported, if the token starts at an offset and the text goes on
with `cs`: at the start of the token, but a dangling backslash at itself. -/
def Fault.position (fault : Fault) (offset : Nat) (cs : List Char) : Nat :=
  match fault with
  | dangling => offset + byteLength cs - 1
  | _ => offset

theorem splitQuoted_rest_le {d : Char} {cs raw rest : List Char}
    (h : splitQuoted d cs = .closed raw rest) : rest.length ≤ cs.length := by
  fun_induction splitQuoted d cs generalizing raw with
  | case1 => cases h
  | case2 => cases h
  | case3 c cs ih =>
    cases hs : splitQuoted d cs with
    | closed raw' rest' =>
      rw [hs] at h
      cases h
      exact Nat.le_trans (ih hs) (by simp only [List.length_cons]; omega)
    | unclosed => rw [hs] at h; cases h
    | dangling => rw [hs] at h; cases h
  | case4 c cs => cases h; simp
  | case5 c cs _ _ _ ih =>
    cases hs : splitQuoted d cs with
    | closed raw' rest' =>
      rw [hs] at h
      cases h
      exact Nat.le_trans (ih hs) (by simp)
    | unclosed => rw [hs] at h; cases h
    | dangling => rw [hs] at h; cases h

theorem length_dropWhile_le (p : Char → Bool) (cs : List Char) :
    (cs.dropWhile p).length ≤ cs.length :=
  (List.dropWhile_suffix p).length_le

theorem cutCompare_rest_le (short long : CompareOp) (cs : List Char) :
    (cutCompare short long cs).rest.length ≤ cs.length := by
  rw [cutCompare.eq_def]
  split <;> simp

theorem cutNotEqual_rest_le {cs : List Char} {k : Cut} (h : cutNotEqual cs = .ok k) :
    k.rest.length ≤ cs.length := by
  rw [cutNotEqual.eq_def] at h
  split at h <;> cases h
  simp

theorem cutQuoted_rest_le {d : Char} {cs : List Char} {k : Cut} (h : cutQuoted d cs = .ok k) :
    k.rest.length ≤ cs.length := by
  rw [cutQuoted] at h
  split at h <;> cases h
  next hs => exact splitQuoted_rest_le hs

theorem cutWord_rest_le {c : Char} {cs : List Char} {k : Cut} (h : cutWord c cs = .ok k) :
    k.rest.length ≤ cs.length := by
  rw [cutWord] at h
  split at h <;> cases h
  exact length_dropWhile_le _ _

theorem cut_rest_le {c : Char} {cs : List Char} {k : Cut} (h : cut c cs = .ok k) :
    k.rest.length ≤ cs.length := by
  rw [cut.eq_def] at h
  split at h
  · cases h; exact Nat.le_refl _
  · cases h; exact Nat.le_refl _
  · cases h; exact Nat.le_refl _
  · cases h; exact Nat.le_refl _
  · cases h; exact cutCompare_rest_le _ _ _
  · cases h; exact cutCompare_rest_le _ _ _
  · exact cutNotEqual_rest_le h
  · split at h
    · cases h; exact length_dropWhile_le _ _
    · split at h
      · exact cutQuoted_rest_le h
      · exact cutWord_rest_le h

end FilterQuery
