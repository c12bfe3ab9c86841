/-
What is cut off a text as one token.

* **`Piece`** — a text is cut off as a lexeme where another text follows, one constructor
  for each way to write a token;
* **`piece_of_cut`**, **`cut_of_piece`** — a cut takes off a piece and nothing else;
* **`Piece.alone`** — a piece is the same piece where nothing follows it;
* **`Piece.not_merges`** — a piece never stops before a lexeme that it would go on with.

Design notes.  What follows a piece matters in one way only: its first character must not
belong to the piece (`Stops`).  For quoted words not even that, since they say
themselves where they end.
-/
import FilterQuery.Proofs.Token.Quoting
import Mathlib.Data.String.Basic

namespace FilterQuery

/-! ### Bytes -/

theorem byteLength_eq_utf8Len (cs : List Char) : byteLength cs = String.utf8Len cs := by
  have hfold : ∀ n, cs.foldl (fun n c => n + c.utf8Size) n = n + String.utf8Len cs := by
    induction cs with
    | nil => intro n; rfl
    | cons c cs ih =>
      intro n
      rw [List.foldl_cons, ih, String.utf8Len_cons]
      omega
  rw [byteLength, hfold, Nat.zero_add]

theorem byteLength_append (cs ds : List Char) :
    byteLength (cs ++ ds) = byteLength cs + byteLength ds := by
  simp only [byteLength_eq_utf8Len, String.utf8Len_append]

theorem byteLength_toList (s : String) : byteLength s.toList = s.utf8ByteSize := by
  rw [byteLength_eq_utf8Len, String.utf8Len_toList]

theorem byteLength_pos {cs : List Char} (h : cs ≠ []) : 0 < byteLength cs := by
  have hne : String.utf8Len cs ≠ 0 := fun hz => h (String.utf8Len_eq_zero.mp hz)
  rw [byteLength_eq_utf8Len]
  omega

theorem Delimiter.byteLength_enclosed (d : Delimiter) (raw : List Char) :
    byteLength (d.char :: (raw ++ [d.char])) = byteLength raw + 2 := by
  have hmark : byteLength [d.char] = 1 := by
    rcases d.char_cases with hd | hd | hd <;> rw [hd] <;> rfl
  show byteLength ([d.char] ++ (raw ++ [d.char])) = _
  rw [byteLength_append, byteLength_append, hmark]
  omega

/-! ### Pieces -/

/-- The text does not begin with a character of the given kind. -/
def Stops (p : Char → Bool) (rest : List Char) : Prop :=
  ∀ c ∈ rest.head?, p c = false

theorem stops_nil (p : Char → Bool) : Stops p [] :=
  nofun

/-- The tokens with one spelling that nothing can go on with. -/
def signs : List (List Char × Lexeme) :=
  [(['='], .compare .eq), (['%'], .compare .contains), (['('], .opening), ([')'], .closing),
    (['>', '='], .compare .ge), (['<', '='], .compare .le), (['!', '='], .compare .ne)]

/-- A text is cut off as a lexeme where `rest` follows. -/
inductive Piece : List Char → Lexeme → List Char → Prop
  | sign {w : List Char} {x : Lexeme} (rest : List Char) : (w, x) ∈ signs → Piece w x rest
  | gt {rest : List Char} : Stops (· == '=') rest → Piece ['>'] (.compare .gt) rest
  | lt {rest : List Char} : Stops (· == '=') rest → Piece ['<'] (.compare .lt) rest
  | blank {c : Char} {cs rest : List Char} :
      (∀ d ∈ c :: cs, Text.isSpace d = true) → Stops Text.isSpace rest →
        Piece (c :: cs) .blank rest
  | quoted (d : Delimiter) {raw : List Char} (rest : List Char) :
      (∀ rest', splitQuoted d.char (raw ++ d.char :: rest') = .closed raw rest') →
        Piece (d.char :: (raw ++ [d.char]))
          (.word .quoted (String.ofList (unescape d.char raw))) rest
  | word {c : Char} {cs rest : List Char} {x : Lexeme} :
      isQuoteMark c = false → (∀ d ∈ c :: cs, isWordChar d = true) → Stops isWordChar rest →
        Lexeme.ofWord (c :: cs) = .ok x → Piece (c :: cs) x rest

/-- A piece is a piece where nothing follows it. -/
theorem Piece.alone {w rest : List Char} {x : Lexeme} (h : Piece w x rest) : Piece w x [] := by
  cases h with
  | sign _ hs => exact .sign [] hs
  | gt _ => exact .gt (stops_nil _)
  | lt _ => exact .lt (stops_nil _)
  | blank hc _ => exact .blank hc (stops_nil _)
  | quoted d _ hraw => exact .quoted d [] hraw
  | word hq hc _ hx => exact .word hq hc (stops_nil _) hx

theorem Piece.ne_nil {w rest : List Char} {x : Lexeme} (h : Piece w x rest) : w ≠ [] := by
  cases h with
  | sign _ hs =>
    have hsigns : ∀ p ∈ signs, p.1 ≠ [] := by decide
    exact hsigns _ hs
  | _ => exact List.cons_ne_nil _ _

/-! ### From a cut to a piece -/

theorem QuotedEnd.push_eq_closed_iff {front raw rest : List Char} {q : QuotedEnd} :
    q.push front = .closed raw rest ↔ ∃ raw', q = .closed raw' rest ∧ raw = front ++ raw' := by
  cases q with
  | closed raw' rest' => simp [push, eq_comm, and_comm]
  | unclosed => simp [push]
  | dangling => simp [push]

/-- A quoted word ends at its delimiter, whatever follows. -/
theorem splitQuoted_eq_closed {d : Char} (hd : d ≠ '\\') {cs raw rest : List Char}
    (h : splitQuoted d cs = .closed raw rest) :
    cs = raw ++ d :: rest ∧ ∀ rest', splitQuoted d (raw ++ d :: rest') = .closed raw rest' := by
  fun_induction splitQuoted d cs generalizing raw with
  | case1 => cases h
  | case2 => cases h
  | case3 c cs ih =>
    obtain ⟨raw', hs, rfl⟩ := QuotedEnd.push_eq_closed_iff.mp h
    obtain ⟨rfl, hclosed⟩ := ih hs
    refine ⟨rfl, fun rest' => ?_⟩
    show splitQuoted d ('\\' :: c :: (raw' ++ d :: rest')) = _
    rw [splitQuoted, hclosed]
    rfl
  | case4 cs =>
    cases h
    exact ⟨rfl, splitQuoted_escapeWith hd []⟩
  | case5 c cs hlast hpair hne ih =>
    obtain ⟨raw', hs, rfl⟩ := QuotedEnd.push_eq_closed_iff.mp h
    obtain ⟨rfl, hclosed⟩ := ih hs
    have hb : c ≠ '\\' := by
      rintro rfl
      cases raw' with
      | nil => exact hpair d rest rfl rfl
      | cons c' raw' => exact hpair c' _ rfl rfl
    refine ⟨rfl, fun rest' => ?_⟩
    show splitQuoted d (c :: (raw' ++ d :: rest')) = _
    rw [splitQuoted_cons hb hne, hclosed]
    rfl

theorem stops_dropWhile (p : Char → Bool) (cs : List Char) : Stops p (cs.dropWhile p) := by
  intro c hc
  have hnot := List.head?_dropWhile_not p cs
  rw [hc] at hnot
  exact hnot

theorem cutCompare_cases (short long : CompareOp) (cs : List Char) :
    (∃ rest, cs = '=' :: rest ∧ cutCompare short long cs = ⟨.compare long, 2, rest⟩) ∨
      (Stops (· == '=') cs ∧ cutCompare short long cs = ⟨.compare short, 1, cs⟩) := by
  rw [cutCompare.eq_def]
  split
  · exact .inl ⟨_, rfl, rfl⟩
  · next hne =>
    refine .inr ⟨fun c hc => ?_, rfl⟩
    obtain ⟨rest, rfl⟩ := List.head?_eq_some_iff.mp hc
    exact beq_false_of_ne fun heq => hne rest (heq ▸ rfl)

theorem piece_of_cutQuoted (d : Delimiter) {cs : List Char} {k : Cut}
    (h : cutQuoted d.char cs = .ok k) :
    ∃ w, d.char :: cs = w ++ k.rest ∧ k.size = byteLength w ∧ Piece w k.lexeme k.rest := by
  rw [cutQuoted] at h
  split at h <;> cases h
  next raw rest hs =>
  obtain ⟨rfl, hclosed⟩ := splitQuoted_eq_closed d.char_ne_backslash hs
  refine ⟨d.char :: (raw ++ [d.char]), by simp, ?_, .quoted d rest hclosed⟩
  rw [d.byteLength_enclosed]

theorem piece_of_cutWord {c : Char} (hq : isQuoteMark c = false) (hc : isWordChar c = true)
    {cs : List Char} {k : Cut} (h : cutWord c cs = .ok k) :
    ∃ w, c :: cs = w ++ k.rest ∧ k.size = byteLength w ∧ Piece w k.lexeme k.rest := by
  rw [cutWord] at h
  split at h <;> cases h
  next x hx =>
  refine ⟨c :: cs.takeWhile isWordChar, ?_, rfl, ?_⟩
  · rw [List.cons_append, List.takeWhile_append_dropWhile]
  · refine .word hq (List.forall_mem_cons.mpr ⟨hc, fun d hd => ?_⟩) (stops_dropWhile _ _) hx
    exact List.all_eq_true.mp List.all_takeWhile d hd

/-- **A cut takes off a piece**: what it takes off and what it leaves make up the text. -/
theorem piece_of_cut {c : Char} {cs : List Char} {k : Cut} (h : cut c cs = .ok k) :
    ∃ w, c :: cs = w ++ k.rest ∧ k.size = byteLength w ∧ Piece w k.lexeme k.rest := by
  rw [cut.eq_def] at h
  -- The cases are the characters that a token begins with, in the order of the cut.
  split at h
  · cases h; exact ⟨['='], rfl, rfl, .sign _ (by simp [signs])⟩
  · cases h; exact ⟨['%'], rfl, rfl, .sign _ (by simp [signs])⟩
  · cases h; exact ⟨['('], rfl, rfl, .sign _ (by simp [signs])⟩
  · cases h; exact ⟨[')'], rfl, rfl, .sign _ (by simp [signs])⟩
  · cases h
    rcases cutCompare_cases .gt .ge cs with ⟨rest, rfl, hk⟩ | ⟨hstop, hk⟩
    · rw [hk]; exact ⟨['>', '='], rfl, rfl, .sign _ (by simp [signs])⟩
    · rw [hk]; exact ⟨['>'], rfl, rfl, .gt hstop⟩
  · cases h
    rcases cutCompare_cases .lt .le cs with ⟨rest, rfl, hk⟩ | ⟨hstop, hk⟩
    · rw [hk]; exact ⟨['<', '='], rfl, rfl, .sign _ (by simp [signs])⟩
    · rw [hk]; exact ⟨['<'], rfl, rfl, .lt hstop⟩
  · rw [cutNotEqual.eq_def] at h
    split at h <;> cases h
    exact ⟨['!', '='], rfl, rfl, .sign _ (by simp [signs])⟩
  · next heq hcontains hopen hclose hgt hlt hne =>
    split at h
    · next hspace =>
      cases h
      refine ⟨c :: cs.takeWhile Text.isSpace, ?_, rfl, ?_⟩
      · simp [cutBlank]
      · refine .blank (List.forall_mem_cons.mpr ⟨hspace, fun d hd => ?_⟩) (stops_dropWhile _ _)
        exact List.all_eq_true.mp List.all_takeWhile d hd
    · next hspace =>
      split at h
      · next hq => exact piece_of_cutQuoted ⟨c, hq⟩ h
      · next hq =>
        have hc : isWordChar c = true := by
          simp only [isWordChar, isOperatorChar]
          simp_all
        exact piece_of_cutWord (by simpa using hq) hc h

/-! ### From a piece to a cut -/

theorem cut_of_isSpace {c : Char} (h : Text.isSpace c = true) (cs : List Char) :
    cut c cs = .ok (cutBlank c cs) := by
  simp only [Text.isSpace, Bool.or_eq_true, beq_iff_eq] at h
  rcases h with ((rfl | rfl) | rfl) | rfl <;> rfl

theorem cut_of_isWordChar {c : Char} (hq : isQuoteMark c = false) (hc : isWordChar c = true)
    (cs : List Char) : cut c cs = cutWord c cs := by
  rw [cut.eq_def]
  split
  any_goals cases hc
  have hspace : Text.isSpace c = false := by
    simp only [isWordChar, Bool.not_eq_true', Bool.or_eq_false_iff] at hc
    exact hc.1
  rw [hspace, hq]
  rfl

theorem takeWhile_append_of_stops {p : Char → Bool} {cs rest : List Char}
    (hcs : ∀ c ∈ cs, p c = true) (hrest : Stops p rest) :
    (cs ++ rest).takeWhile p = cs ∧ (cs ++ rest).dropWhile p = rest := by
  rw [List.takeWhile_append_of_pos hcs, List.dropWhile_append_of_pos hcs]
  cases rest with
  | nil => simp
  | cons c rest =>
    have hc : p c = false := hrest c rfl
    simp [hc]

/-- **A piece is cut off**, and what follows it is left. -/
theorem cut_of_piece {w rest : List Char} {x : Lexeme} (h : Piece w x rest) :
    ∃ c cs, w ++ rest = c :: cs ∧ cut c cs = .ok ⟨x, byteLength w, rest⟩ := by
  cases h with
  | sign _ hs =>
    simp only [signs, List.mem_cons, Prod.mk.injEq, List.not_mem_nil, or_false] at hs
    rcases hs with ⟨rfl, rfl⟩ | ⟨rfl, rfl⟩ | ⟨rfl, rfl⟩ | ⟨rfl, rfl⟩ | ⟨rfl, rfl⟩ | ⟨rfl, rfl⟩ |
      ⟨rfl, rfl⟩ <;> exact ⟨_, _, rfl, rfl⟩
  | gt hstop =>
    refine ⟨'>', rest, rfl, ?_⟩
    rcases cutCompare_cases .gt .ge rest with ⟨rest', rfl, -⟩ | ⟨-, hk⟩
    · cases hstop '=' rfl
    · exact congrArg _ hk
  | lt hstop =>
    refine ⟨'<', rest, rfl, ?_⟩
    rcases cutCompare_cases .lt .le rest with ⟨rest', rfl, -⟩ | ⟨-, hk⟩
    · cases hstop '=' rfl
    · exact congrArg _ hk
  | @blank c cs _ hc hstop =>
    obtain ⟨hspace, hcs⟩ := List.forall_mem_cons.mp hc
    obtain ⟨htake, hdrop⟩ := takeWhile_append_of_stops hcs hstop
    refine ⟨c, cs ++ rest, rfl, ?_⟩
    rw [cut_of_isSpace hspace, cutBlank, htake, hdrop]
  | @quoted d raw _ hraw =>
    refine ⟨d.char, raw ++ d.char :: rest, by simp, ?_⟩
    rw [cut_delimiter, cutQuoted, hraw, d.byteLength_enclosed]
  | @word c cs _ _ hq hc hstop hx =>
    obtain ⟨hword, hcs⟩ := List.forall_mem_cons.mp hc
    obtain ⟨htake, hdrop⟩ := takeWhile_append_of_stops hcs hstop
    refine ⟨c, cs ++ rest, rfl, ?_⟩
    rw [cut_of_isWordChar hq hword, cutWord, htake, hdrop, hx]

/-! ### Two pieces side by side -/

/-- Words without delimiters: symbols, numbers and connectives. -/
def Lexeme.isBare : Lexeme → Bool
  | .word .symbol _ | .word .number _ | .connect _ => true
  | _ => false

/-- The characters that would belong to a lexeme if they came right after it. -/
def Lexeme.absorbs : Lexeme → Char → Bool
  | .blank, c => Text.isSpace c
  | .compare .gt, c | .compare .lt, c => c == '='
  | .word .symbol _, c | .word .number _, c | .connect _, c => isWordChar c
  | _, _ => false

/-- Two lexemes that are never cut off one right after the other. -/
inductive Merges : Lexeme → Lexeme → Prop
  | blanks : Merges .blank .blank
  | words {x y : Lexeme} : x.isBare = true → y.isBare = true → Merges x y
  | quoted {x : Lexeme} (text : String) : x.isBare = true → Merges x (.word .quoted text)
  | gtEq : Merges (.compare .gt) (.compare .eq)
  | ltEq : Merges (.compare .lt) (.compare .eq)

namespace Lexeme

theorem isBare_of_ofWord {w : List Char} {x : Lexeme} (h : ofWord w = .ok x) :
    x.isBare = true := by
  rcases ofWord_cases h with ⟨op, rfl⟩ | rfl | rfl <;> rfl

theorem absorbs_of_isBare {x : Lexeme} (h : x.isBare = true) (c : Char) :
    x.absorbs c = isWordChar c := by
  cases x with
  | word kind text => cases kind <;> trivial
  | connect op => rfl
  | _ => cases h

end Lexeme

variable {w rest : List Char} {x y : Lexeme}

theorem Piece.stops (h : Piece w x rest) : Stops x.absorbs rest := by
  cases h with
  | sign _ hs =>
    simp only [signs, List.mem_cons, Prod.mk.injEq, List.not_mem_nil, or_false] at hs
    rcases hs with ⟨-, rfl⟩ | ⟨-, rfl⟩ | ⟨-, rfl⟩ | ⟨-, rfl⟩ | ⟨-, rfl⟩ | ⟨-, rfl⟩ | ⟨-, rfl⟩ <;>
      exact fun _ _ => rfl
  | gt hstop => exact hstop
  | lt hstop => exact hstop
  | blank _ hstop => exact hstop
  | quoted => exact fun _ _ => rfl
  | word _ _ hstop hx =>
    intro c hc
    rw [Lexeme.absorbs_of_isBare (Lexeme.isBare_of_ofWord hx)]
    exact hstop c hc

theorem Delimiter.isWordChar_char (d : Delimiter) : isWordChar d.char = true := by
  rcases d.char_cases with h | h | h <;> rw [h] <;> rfl

/-- What merges with a lexeme begins with a character that belongs to the lexeme. -/
theorem Merges.absorbs_head (hm : Merges x y) (h : Piece w y rest) :
    ∃ c, w.head? = some c ∧ x.absorbs c = true := by
  cases hm with
  | blanks =>
    cases h with
    | sign _ hs => simp [signs] at hs
    | blank hc _ => exact ⟨_, rfl, hc _ List.mem_cons_self⟩
    | word _ _ _ hx => cases Lexeme.isBare_of_ofWord hx
  | words hx hy =>
    cases h with
    | sign _ hs =>
      have hsigns : ∀ p ∈ signs, p.2.isBare = false := by decide
      cases (hsigns _ hs).symm.trans hy
    | word _ hc _ _ =>
      refine ⟨_, rfl, ?_⟩
      rw [Lexeme.absorbs_of_isBare hx]
      exact hc _ List.mem_cons_self
    | _ => cases hy
  | quoted text hx =>
    cases h with
    | sign _ hs => simp [signs] at hs
    | quoted d _ _ =>
      refine ⟨_, rfl, ?_⟩
      rw [Lexeme.absorbs_of_isBare hx]
      exact d.isWordChar_char
    | word _ _ _ hy => cases Lexeme.isBare_of_ofWord hy
  | gtEq =>
    cases h with
    | sign _ hs => exact ⟨'=', by simp_all [signs], rfl⟩
    | word _ _ _ hy => cases Lexeme.isBare_of_ofWord hy
  | ltEq =>
    cases h with
    | sign _ hs => exact ⟨'=', by simp_all [signs], rfl⟩
    | word _ _ _ hy => cases Lexeme.isBare_of_ofWord hy

/-- **A piece is as long as it can be**: what follows it does not merge with it. -/
theorem Piece.not_merges {v : List Char} (h : Piece w x (v ++ rest)) (h' : Piece v y rest) :
    ¬ Merges x y := by
  intro hm
  obtain ⟨c, hc, habsorbs⟩ := hm.absorbs_head h'
  have hstop := h.stops c (by rw [List.head?_append, hc]; rfl)
  rw [habsorbs] at hstop
  cases hstop

/-- Only a quoted word can be empty. -/
theorem Piece.text_ne_empty {kind : WordKind} {text : String}
    (h : Piece w (.word kind text) rest) (hkind : kind ≠ .quoted) : text ≠ "" := by
  cases h with
  | sign _ hs => simp [signs] at hs
  | quoted => exact absurd rfl hkind
  | @word c cs _ _ _ _ _ hx =>
    rcases Lexeme.ofWord_cases hx with ⟨op, hword⟩ | hword | hword
    · cases hword
    · cases hword
      simp
    · cases hword
      simp

end FilterQuery
