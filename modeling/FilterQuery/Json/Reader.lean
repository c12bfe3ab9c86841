/-
Reading a JSON text.

A text is first cut into pieces; the pieces are then put together by a machine that
keeps the arrays and objects still open on a stack.

* **`Json.lex?`** — the pieces of a text;
* **`Json.assemble?`** — the value that a list of pieces makes up;
* **`Json.read?`** — the value of a text;
* **`piece?_rest_lt`** — a piece takes something off the text.

Design notes.  Values are separated by punctuation, so two values side by side are
refused by the machine, and cutting need not look at what follows a piece.  The
stack is a list: how deep a text is nested is no concern of the reader.
-/
import FilterQuery.Json.Text
import FilterQuery.Text.Whitespace

namespace FilterQuery

namespace Json

/-- The digits at the start of a text, at least one, and what follows them. -/
def digits? (cs : List Char) : Option (List Char × List Char) :=
  let ds := cs.takeWhile Char.isDigit
  if ds = [] then none else some (ds, cs.dropWhile Char.isDigit)

/-- The whole part of a number: a zero, or digits that start with another one. -/
def wholePart? : List Char → Option (List Char × List Char)
  | '0' :: cs => some (['0'], cs)
  | cs => digits? cs

/-- The fraction of a number, if a point follows. -/
def fractionPart? : List Char → Option (List Char × List Char)
  | '.' :: cs => (digits? cs).map fun r => ('.' :: r.1, r.2)
  | cs => some ([], cs)

/-- The sign of an exponent, if there is one. -/
def exponentSign : List Char → List Char × List Char
  | '+' :: cs => (['+'], cs)
  | '-' :: cs => (['-'], cs)
  | cs => ([], cs)

/-- The exponent of a number, if its mark follows. -/
def exponentPart? : List Char → Option (List Char × List Char)
  | c :: cs =>
    if c = 'e' ∨ c = 'E' then
      let (sign, cs) := exponentSign cs
      (digits? cs).map fun r => (c :: (sign ++ r.1), r.2)
    else some ([], c :: cs)
  | [] => some ([], [])

/-- The characters of a number without its sign, and what follows it. -/
def unsigned? (cs : List Char) : Option (List Char × List Char) := do
  let (whole, cs) ← wholePart? cs
  let (fraction, cs) ← fractionPart? cs
  let (exponent, cs) ← exponentPart? cs
  return (whole ++ fraction ++ exponent, cs)

/-- The characters of a number, and what follows it. -/
def number? : List Char → Option (List Char × List Char)
  | '-' :: cs => (unsigned? cs).map fun r => ('-' :: r.1, r.2)
  | cs => unsigned? cs

/-- The piece at the start of a text that does not start with a blank, and what
follows it. -/
def piece? : List Char → Option (JsonToken × List Char)
  | '[' :: cs => some (.arrayOpen, cs)
  | ']' :: cs => some (.arrayClose, cs)
  | '\x7b' :: cs => some (.objectOpen, cs)
  | '\x7d' :: cs => some (.objectClose, cs)
  | ',' :: cs => some (.comma, cs)
  | ':' :: cs => some (.colon, cs)
  | 'n' :: 'u' :: 'l' :: 'l' :: cs => some (.scalar .null, cs)
  | 't' :: 'r' :: 'u' :: 'e' :: cs => some (.scalar (.bool true), cs)
  | 'f' :: 'a' :: 'l' :: 's' :: 'e' :: cs => some (.scalar (.bool false), cs)
  | '"' :: cs => (readString? cs).map fun r => (.scalar (.string r.1), r.2)
  | cs => (number? cs).map fun r => (.scalar (.number (String.ofList r.1)), r.2)

theorem digits?_rest_lt {cs ds rest : List Char} (h : digits? cs = some (ds, rest)) :
    rest.length < cs.length := by
  rw [digits?] at h
  split at h
  · cases h
  · next hne =>
    cases h
    have hlen := congrArg List.length (List.takeWhile_append_dropWhile (p := Char.isDigit) (l := cs))
    have hpos := List.length_pos_iff.2 hne
    rw [List.length_append] at hlen
    omega

theorem wholePart?_rest_lt {cs ds rest : List Char} (h : wholePart? cs = some (ds, rest)) :
    rest.length < cs.length := by
  rw [wholePart?.eq_def] at h
  split at h
  · cases h
    exact Nat.lt_succ_self _
  · exact digits?_rest_lt h

theorem fractionPart?_rest_le {cs ds rest : List Char} (h : fractionPart? cs = some (ds, rest)) :
    rest.length ≤ cs.length := by
  rw [fractionPart?.eq_def] at h
  split at h
  · rw [Option.map_eq_some_iff] at h
    obtain ⟨⟨ds', rest'⟩, h, h'⟩ := h
    cases h'
    exact Nat.le_of_lt (Nat.lt_succ_of_lt (digits?_rest_lt h))
  · cases h
    exact Nat.le_refl _

theorem exponentSign_rest_le (cs : List Char) : (exponentSign cs).2.length ≤ cs.length := by
  rw [exponentSign.eq_def]
  split <;> simp

theorem exponentPart?_rest_le {cs ds rest : List Char} (h : exponentPart? cs = some (ds, rest)) :
    rest.length ≤ cs.length := by
  rw [exponentPart?.eq_def] at h
  split at h
  · next c cs =>
    split at h
    · rw [Option.map_eq_some_iff] at h
      obtain ⟨⟨ds', rest'⟩, h, h'⟩ := h
      cases h'
      have := digits?_rest_lt h
      have := exponentSign_rest_le cs
      simp only [List.length_cons]
      omega
    · cases h
      exact Nat.le_refl _
  · cases h
    exact Nat.le_refl _

theorem unsigned?_rest_lt {cs ds rest : List Char} (h : unsigned? cs = some (ds, rest)) :
    rest.length < cs.length := by
  simp only [unsigned?, bind, Option.bind_eq_some_iff, pure] at h
  obtain ⟨⟨w, cs₁⟩, hw, ⟨f, cs₂⟩, hf, ⟨e, cs₃⟩, he, h⟩ := h
  cases h
  dsimp only at hf he ⊢
  have := wholePart?_rest_lt hw
  have := fractionPart?_rest_le hf
  have := exponentPart?_rest_le he
  omega

theorem number?_rest_lt {cs ds rest : List Char} (h : number? cs = some (ds, rest)) :
    rest.length < cs.length := by
  rw [number?.eq_def] at h
  split at h
  · rw [Option.map_eq_some_iff] at h
    obtain ⟨⟨ds', rest'⟩, h, h'⟩ := h
    cases h'
    exact Nat.lt_succ_of_lt (unsigned?_rest_lt h)
  · exact unsigned?_rest_lt h

theorem piece?_rest_lt {cs : List Char} {t : JsonToken} {rest : List Char}
    (h : piece? cs = some (t, rest)) : rest.length < cs.length := by
  rw [piece?.eq_def] at h
  split at h
  case h_10 =>
    rw [Option.map_eq_some_iff] at h
    obtain ⟨⟨s, rest'⟩, h, h'⟩ := h
    cases h'
    exact Nat.lt_succ_of_lt (readString?_rest_lt h)
  case h_11 =>
    rw [Option.map_eq_some_iff] at h
    obtain ⟨⟨ds, rest'⟩, h, h'⟩ := h
    cases h'
    exact number?_rest_lt h
  all_goals
    cases h
    simp only [List.length_cons]
    omega

/-- The pieces of a text, after those already cut off (latest first). -/
def lexFrom (done : List JsonToken) (text : List Char) : Option (List JsonToken) :=
  match text with
  | [] => some done.reverse
  | c :: cs =>
    if Text.isSpace c then lexFrom done cs
    else
      match _h : piece? (c :: cs) with
      | none => none
      | some (t, rest) => lexFrom (t :: done) rest
termination_by text.length
decreasing_by
  · exact Nat.lt_succ_self _
  · exact piece?_rest_lt _h

/-- The pieces of a text. -/
def lex? (text : List Char) : Option (List JsonToken) :=
  lexFrom [] text

/-- An array or object that is still open. -/
inductive Frame
  /-- The items before the one that is being read, latest first. -/
  | array (items : List Json)
  /-- The members before, latest first, and the key of the one that is being read. -/
  | object (members : List (JsonText × Json)) (key : JsonText)

/-- What may come next. -/
inductive Expectation
  /-- A value. -/
  | value
  /-- A value or the end of an array that has just been opened. -/
  | itemOrEnd
  /-- A key after the given members; the end of the object if there are none. -/
  | key (members : List (JsonText × Json))
  /-- The colon after a key. -/
  | colon (members : List (JsonText × Json)) (key : JsonText)
  /-- What follows the value. -/
  | after (v : Json)

/-- The machine while a text is read: what may come next, and what is still open. -/
structure Assembly where
  expectation : Expectation
  stack : List Frame

/-- A piece where a value is due. -/
def stepValue (stack : List Frame) : JsonToken → Option Assembly
  | .scalar s => some ⟨.after (.scalar s), stack⟩
  | .arrayOpen => some ⟨.itemOrEnd, stack⟩
  | .objectOpen => some ⟨.key [], stack⟩
  | _ => none

/-- A piece after a value. -/
def stepAfter (v : Json) : List Frame → JsonToken → Option Assembly
  | .array items :: stack, .comma => some ⟨.value, .array (v :: items) :: stack⟩
  | .array items :: stack, .arrayClose => some ⟨.after (.array (v :: items).reverse), stack⟩
  | .object members key :: stack, .comma => some ⟨.key ((key, v) :: members), stack⟩
  | .object members key :: stack, .objectClose =>
    some ⟨.after (.object ((key, v) :: members).reverse), stack⟩
  | _, _ => none

/-- The machine after one more piece. -/
def Assembly.step (a : Assembly) (t : JsonToken) : Option Assembly :=
  match a.expectation, t with
  | .value, t => stepValue a.stack t
  | .itemOrEnd, .arrayClose => some ⟨.after (.array []), a.stack⟩
  | .itemOrEnd, t => stepValue (.array [] :: a.stack) t
  | .key [], .objectClose => some ⟨.after (.object []), a.stack⟩
  | .key members, .scalar (.string k) => some ⟨.colon members k, a.stack⟩
  | .colon members k, .colon => some ⟨.value, .object members k :: a.stack⟩
  | .after v, t => stepAfter v a.stack t
  | _, _ => none

/-- The machine after some pieces. -/
def Assembly.run (a : Assembly) : List JsonToken → Option Assembly
  | [] => some a
  | t :: ts =>
    match a.step t with
    | some a' => a'.run ts
    | none => none

/-- The value that has been read, if nothing is open. -/
def Assembly.result? (a : Assembly) : Option Json :=
  match a.expectation, a.stack with
  | .after v, [] => some v
  | _, _ => none

/-- The value that a list of pieces makes up. -/
def assemble? (ts : List JsonToken) : Option Json :=
  match Assembly.run ⟨.value, []⟩ ts with
  | some a => a.result?
  | none => none

/-- The value of a JSON text. -/
def read? (text : String) : Option Json :=
  match lex? text.toList with
  | some ts => assemble? ts
  | none => none

end Json

end FilterQuery
