/-
What is written as JSON reads back.

* **`Json.piece?_writeString`** — a string reads back, whatever its characters;
* **`JsonScalar.Legible`** — a scalar that reads back, as long as no number could go on
  behind it;
* **`Json.lexes_tokens`** — the text of a value is cut into the pieces it was written from;
* **`Json.assembles_tokens`** — the pieces of a value are put together to this value;
* **`Json.read?_write`** — so a value reads back if its scalars do.

Design notes.  Both directions of a value go through its pieces, so cutting and putting
together are separate inductions over the value.  Only a number needs to know what comes
after it; inside a value that is always a comma, a bracket or a brace.
-/
import FilterQuery.Json.Reader
import FilterQuery.Json.Writer
import FilterQuery.Proofs.Token.Piece

namespace FilterQuery

/-! ### Strings -/

namespace Json

theorem hexDigit?_hexChar : ∀ n < 16, hexDigit? (hexChar n) = some n := by
  decide

/-- A character that is written inside a string stands for its own code point. -/
theorem units?_escapeChar (c : Char) (cs : List Char) :
    units? (escapeChar c ++ cs) = pushUnit (some c.toNat) (units? cs) := by
  rw [escapeChar.eq_def]
  split
  · rfl
  · rfl
  · rfl
  · rfl
  · rfl
  · next hquote hbackslash _ _ _ =>
    by_cases hb : c.toNat = 0x08
    · rw [if_pos hb, hb]
      rfl
    by_cases hf : c.toNat = 0x0C
    · rw [if_neg hb, if_pos hf, hf]
      rfl
    by_cases hlow : c.toNat < 0x20
    · rw [if_neg hb, if_neg hf, if_pos hlow]
      have hhigh := hexDigit?_hexChar (c.toNat / 16) (by omega)
      have hrest := hexDigit?_hexChar (c.toNat % 16) (by omega)
      have hzero : hexDigit? '0' = some 0 := rfl
      have hunit : ((0 * 16 + 0) * 16 + c.toNat / 16) * 16 + c.toNat % 16 = c.toNat := by omega
      show pushUnit (hex4? '0' '0' _ _) (units? cs) = _
      rw [hex4?, hhigh, hrest, hzero]
      dsimp only
      rw [hunit]
    · -- Everything else is written as it is.
      rw [if_neg hb, if_neg hf, if_neg hlow]
      show units? (c :: cs) = _
      rw [units?, if_neg hlow]
      · exact hquote
      · intro _ _ _ _ _ hc
        exact absurd hc hbackslash
      · intro _ _ hc
        exact absurd hc hbackslash

theorem units?_escape (s rest : List Char) :
    units? (s.flatMap escapeChar ++ '"' :: rest) = some (s.map Char.toNat, rest) := by
  induction s with
  | nil => rfl
  | cons c s ih =>
    rw [List.flatMap_cons, List.append_assoc, units?_escapeChar, ih]
    rfl

/-- The code point of a character is no half of a surrogate pair. -/
theorem isSurrogate_toNat (c : Char) :
    isHighSurrogate c.toNat = false ∧ isLowSurrogate c.toNat = false := by
  have hvalid : c.toNat < 0xD800 ∨ 0xDFFF < c.toNat ∧ c.toNat < 0x110000 := c.valid
  simp only [isHighSurrogate, isLowSurrogate, Bool.and_eq_false_iff, decide_eq_false_iff_not]
  omega

theorem chars?_map_toNat (s : List Char) : chars? (s.map Char.toNat) = some s := by
  induction s with
  | nil => rfl
  | cons c s ih =>
    obtain ⟨hhigh, hlow⟩ := isSurrogate_toNat c
    cases s with
    | nil => simp [chars?, hhigh, hlow]
    | cons d s =>
      show chars? (c.toNat :: d.toNat :: s.map Char.toNat) = _
      rw [List.map_cons] at ih
      rw [chars?, hhigh, hlow, ih]
      simp

/-- **A string reads back.**  What has no text reads back as what has no text. -/
theorem piece?_writeString (t : JsonText) (rest : List Char) :
    piece? (writeString t ++ rest) = some (.scalar (.string t), rest) := by
  cases t with
  | none => rfl
  | some s =>
    have hread : readString? (s.toList.flatMap escapeChar ++ '"' :: rest) =
        some (some s, rest) := by
      rw [readString?, units?_escape, Option.map_some, chars?_map_toNat, Option.map_some,
        String.ofList_toList]
    rw [writeString, List.cons_append, List.append_assoc]
    show (readString? (s.toList.flatMap escapeChar ++ '"' :: rest)).map _ = _
    rw [hread, Option.map_some]

/-- The characters that a number could go on with. -/
def continuesNumber (c : Char) : Bool :=
  c.isDigit || c == '.' || c == 'e' || c == 'E'

end Json

/-! ### Cutting -/

/-- The scalar reads back, as long as no number could go on behind it. -/
def JsonScalar.Legible (s : JsonScalar) : Prop :=
  ∀ rest, Stops Json.continuesNumber rest →
    Json.piece? (s.write ++ rest) = some (.scalar s, rest)

theorem JsonScalar.legible_string (t : JsonText) : (string t).Legible :=
  fun rest _ => Json.piece?_writeString t rest

theorem JsonScalar.legible_null : null.Legible :=
  fun _ _ => rfl

theorem JsonScalar.legible_bool (b : Bool) : (bool b).Legible := by
  intro rest _
  cases b with
  | true => rfl
  | false => rfl

namespace Json

/-- Every scalar in a value has a property. -/
inductive Each (P : JsonScalar → Prop) : Json → Prop
  | scalar {s : JsonScalar} : P s → Each P (.scalar s)
  | array {xs : List Json} : (∀ x ∈ xs, Each P x) → Each P (.array xs)
  | object {ms : List (JsonText × Json)} : (∀ m ∈ ms, Each P m.2) → Each P (.object ms)

/-- The text of some pieces is cut into these pieces, before a given rest. -/
def Lexes (ts : List JsonToken) (rest : List Char) : Prop :=
  ∀ done, lexFrom done (ts.flatMap JsonToken.write ++ rest) = lexFrom (ts.reverse ++ done) rest

/-- A piece is cut off; what can be a piece does not start with a blank. -/
theorem lexFrom_of_piece {cs rest : List Char} {t : JsonToken} (h : piece? cs = some (t, rest))
    (done : List JsonToken) : lexFrom done cs = lexFrom (t :: done) rest := by
  cases cs with
  | nil => cases h
  | cons c cs =>
    have hspace : Text.isSpace c = false := by
      by_contra hc
      simp only [Bool.not_eq_false, Text.isSpace, Bool.or_eq_true, beq_iff_eq] at hc
      rcases hc with ((rfl | rfl) | rfl) | rfl <;> cases h
    rw [lexFrom, if_neg (by simp [hspace])]
    split
    · next hnone =>
      rw [h] at hnone
      cases hnone
    · next t' rest' hsome =>
      rw [h] at hsome
      cases hsome
      rfl

theorem Lexes.nil (rest : List Char) : Lexes [] rest :=
  fun _ => rfl

theorem Lexes.cons {t : JsonToken} {ts : List JsonToken} {rest : List Char}
    (h : piece? (t.write ++ (ts.flatMap JsonToken.write ++ rest)) =
      some (t, ts.flatMap JsonToken.write ++ rest))
    (hts : Lexes ts rest) : Lexes (t :: ts) rest := by
  intro done
  rw [List.flatMap_cons, List.append_assoc, lexFrom_of_piece h, hts, List.reverse_cons,
    List.append_assoc]
  rfl

theorem Lexes.append {ts us : List JsonToken} {rest : List Char}
    (hts : Lexes ts (us.flatMap JsonToken.write ++ rest)) (hus : Lexes us rest) :
    Lexes (ts ++ us) rest := by
  intro done
  rw [List.flatMap_append, List.append_assoc, hts, hus, List.reverse_append, List.append_assoc]

/-- What follows an item starts with a comma or a bracket. -/
theorem stops_itemTokens (xs : List Json) (rest : List Char) :
    Stops continuesNumber ((itemTokens xs).flatMap JsonToken.write ++ rest) := by
  intro c hc
  cases xs <;> (cases hc; rfl)

theorem stops_memberTokens (ms : List (JsonText × Json)) (rest : List Char) :
    Stops continuesNumber ((memberTokens ms).flatMap JsonToken.write ++ rest) := by
  intro c hc
  rcases ms with _ | ⟨⟨k, x⟩, ms⟩ <;> (cases hc; rfl)

theorem lexes_itemTokens {xs : List Json}
    (h : ∀ x ∈ xs, ∀ rest, Stops continuesNumber rest → Lexes x.tokens rest)
    (rest : List Char) : Lexes (itemTokens xs) rest := by
  induction xs with
  | nil => exact .cons rfl (.nil rest)
  | cons x xs ih =>
    obtain ⟨hx, hxs⟩ := List.forall_mem_cons.mp h
    exact .cons rfl ((hx _ (stops_itemTokens xs rest)).append (ih hxs))

theorem lexes_memberTokens {ms : List (JsonText × Json)}
    (h : ∀ m ∈ ms, ∀ rest, Stops continuesNumber rest → Lexes m.2.tokens rest)
    (rest : List Char) : Lexes (memberTokens ms) rest := by
  induction ms with
  | nil => exact .cons rfl (.nil rest)
  | cons m ms ih =>
    obtain ⟨k, x⟩ := m
    obtain ⟨hx, hms⟩ := List.forall_mem_cons.mp h
    refine .cons rfl (.cons (piece?_writeString k _) (.cons rfl ?_))
    exact (hx _ (stops_memberTokens ms rest)).append (ih hms)

/-- **The text of a value is cut into the pieces of the value.** -/
theorem lexes_tokens {j : Json} (h : j.Each JsonScalar.Legible) (rest : List Char)
    (hrest : Stops continuesNumber rest) : Lexes j.tokens rest := by
  induction h generalizing rest with
  | scalar hs => exact .cons (hs rest hrest) (.nil rest)
  | @array xs _ ih =>
    cases xs with
    | nil => exact .cons rfl (.cons rfl (.nil rest))
    | cons x xs =>
      obtain ⟨hx, hxs⟩ := List.forall_mem_cons.mp ih
      exact .cons rfl ((hx _ (stops_itemTokens xs rest)).append (lexes_itemTokens hxs rest))
  | @object ms _ ih =>
    rcases ms with _ | ⟨⟨k, x⟩, ms⟩
    · exact .cons rfl (.cons rfl (.nil rest))
    · obtain ⟨hx, hms⟩ := List.forall_mem_cons.mp ih
      refine .cons rfl (.cons (piece?_writeString k _) (.cons rfl ?_))
      exact (hx _ (stops_memberTokens ms rest)).append (lexes_memberTokens hms rest)

/-! ### Putting together -/

/-- Some pieces lead the machine from one state to another. -/
def Assembles (a : Assembly) (ts : List JsonToken) (a' : Assembly) : Prop :=
  ∀ rest, a.run (ts ++ rest) = a'.run rest

theorem Assembles.nil (a : Assembly) : Assembles a [] a :=
  fun _ => rfl

theorem Assembles.cons {a a' a'' : Assembly} {t : JsonToken} {ts : List JsonToken}
    (h : a.step t = some a') (hts : Assembles a' ts a'') : Assembles a (t :: ts) a'' := by
  intro rest
  rw [List.cons_append, Assembly.run, h]
  exact hts rest

theorem Assembles.append {a a' a'' : Assembly} {ts us : List JsonToken}
    (hts : Assembles a ts a') (hus : Assembles a' us a'') : Assembles a (ts ++ us) a'' := by
  intro rest
  rw [List.append_assoc, hts, hus]

/-- The first item of an array is read like any other value. -/
theorem Assembles.first {x : Json} {stack : List Frame} {a : Assembly}
    (h : Assembles ⟨.value, .array [] :: stack⟩ x.tokens a) :
    Assembles ⟨.itemOrEnd, stack⟩ x.tokens a := by
  intro rest
  rw [← h rest]
  rcases x with s | (_ | ⟨x, xs⟩) | (_ | ⟨⟨k, x⟩, ms⟩) <;> rfl

theorem assembles_itemTokens {xs : List Json}
    (h : ∀ x ∈ xs, ∀ stack, Assembles ⟨.value, stack⟩ x.tokens ⟨.after x, stack⟩)
    (x : Json) (items : List Json) (stack : List Frame) :
    Assembles ⟨.after x, .array items :: stack⟩ (itemTokens xs)
      ⟨.after (.array ((x :: items).reverse ++ xs)), stack⟩ := by
  induction xs generalizing x items with
  | nil =>
    rw [List.append_nil]
    exact .cons rfl (.nil _)
  | cons y ys ih =>
    obtain ⟨hy, hys⟩ := List.forall_mem_cons.mp h
    have hrest := ih hys y (x :: items)
    rw [List.reverse_cons, List.append_assoc] at hrest
    exact .cons rfl ((hy _).append hrest)

theorem assembles_memberTokens {ms : List (JsonText × Json)}
    (h : ∀ m ∈ ms, ∀ stack, Assembles ⟨.value, stack⟩ m.2.tokens ⟨.after m.2, stack⟩)
    (k : JsonText) (x : Json) (members : List (JsonText × Json)) (stack : List Frame) :
    Assembles ⟨.after x, .object members k :: stack⟩ (memberTokens ms)
      ⟨.after (.object (((k, x) :: members).reverse ++ ms)), stack⟩ := by
  induction ms generalizing k x members with
  | nil =>
    rw [List.append_nil]
    exact .cons rfl (.nil _)
  | cons m ms ih =>
    obtain ⟨k', y⟩ := m
    obtain ⟨hy, hms⟩ := List.forall_mem_cons.mp h
    have hrest := ih hms k' y ((k, x) :: members)
    rw [List.reverse_cons, List.append_assoc] at hrest
    exact .cons rfl (.cons rfl (.cons rfl ((hy _).append hrest)))

/-- **The pieces of a value make up the value**, wherever a value is due. -/
theorem assembles_tokens {P : JsonScalar → Prop} {j : Json} (h : j.Each P) (stack : List Frame) :
    Assembles ⟨.value, stack⟩ j.tokens ⟨.after j, stack⟩ := by
  induction h generalizing stack with
  | scalar _ => exact .cons rfl (.nil _)
  | @array xs _ ih =>
    cases xs with
    | nil => exact .cons rfl (.cons rfl (.nil _))
    | cons x xs =>
      obtain ⟨hx, hxs⟩ := List.forall_mem_cons.mp ih
      exact .cons rfl ((hx _).first.append (assembles_itemTokens hxs x [] stack))
  | @object ms _ ih =>
    rcases ms with _ | ⟨⟨k, x⟩, ms⟩
    · exact .cons rfl (.cons rfl (.nil _))
    · obtain ⟨hx, hms⟩ := List.forall_mem_cons.mp ih
      refine .cons rfl (.cons rfl (.cons rfl ?_))
      exact (hx _).append (assembles_memberTokens hms k x [] stack)

/-- **A value reads back if its scalars do.** -/
theorem read?_write {j : Json} (h : j.Each JsonScalar.Legible) : read? j.write = some j := by
  have hlex : lex? (j.tokens.flatMap JsonToken.write) = some j.tokens := by
    have hlexes := lexes_tokens h [] (stops_nil _) []
    rw [List.append_nil, List.append_nil] at hlexes
    rw [lex?, hlexes, lexFrom, List.reverse_reverse]
  have hassemble : assemble? j.tokens = some j := by
    have hrun := assembles_tokens h [] []
    rw [List.append_nil] at hrun
    rw [assemble?, hrun]
    rfl
  rw [read?, write, String.toList_ofList, hlex]
  exact hassemble

end Json

end FilterQuery
