/-
Where a text cannot be cut into tokens, and what is said of this place.

* **`OpenQuoted`** — a text that stays inside its quotes to the end;
* **`Faulty`** — why no token can be cut off a text, one constructor for each way to go
  wrong;
* **`faulty_of_cut`** — a cut fails for one of these reasons;
* **`Segments.before`** — what was cut off before can be cut off alone;
* **`exists_segments_of_failure`** — a scan that fails has come to such a place, and names it;
* **`FaultAt`** — how a fault stands in a query, and which place is named for it;
* **`tokenize_fault_located`** — so a lexical error stands right where the tokens before it
  end, a dangling backslash at the end of the text; and the same error is given for the
  query as a whole, unless the tokens before it cannot be read.

Design notes.  `Faulty` is to a failing cut what `Piece` is to one that succeeds.  What
follows a fault is never looked at, so that it needs no index for a rest.
-/
import FilterQuery.Proofs.Query.ViablePrefix

namespace FilterQuery

/-! ### Faults -/

/-- A text that stays inside its quotes: there is no delimiter in it but after a backslash,
and it does not end after the backslash of an escape. -/
inductive OpenQuoted (delimiter : Char) : List Char → Prop
  | nil : OpenQuoted delimiter []
  | escaped (c : Char) {cs : List Char} :
      OpenQuoted delimiter cs → OpenQuoted delimiter ('\\' :: c :: cs)
  | plain {c : Char} {cs : List Char} :
      c ≠ '\\' → c ≠ delimiter → OpenQuoted delimiter cs → OpenQuoted delimiter (c :: cs)

/-- Why no token can be cut off a text. -/
inductive Faulty : List Char → Fault → Prop
  /-- The text ends after an exclamation mark. -/
  | lastMark : Faulty ['!'] (.notEqual "!")
  /-- An exclamation mark is followed by something else than an equals sign. -/
  | mark {c : Char} (cs : List Char) :
      c ≠ '=' → Faulty ('!' :: c :: cs) (.notEqual (String.ofList ['!', c]))
  /-- A quoted word does not end. -/
  | unclosed (d : Delimiter) {cs : List Char} :
      OpenQuoted d.char cs → Faulty (d.char :: cs) (.unclosed d.char)
  /-- The text ends after the backslash of an escape in a quoted word. -/
  | dangling (d : Delimiter) {raw : List Char} :
      OpenQuoted d.char raw → Faulty (d.char :: (raw ++ ['\\'])) .dangling
  /-- A number, up to the first character that cannot belong to a word, has two points or
  more. -/
  | number {w rest : List Char} :
      (∀ c ∈ w, isWordChar c = true) → Stops isWordChar rest → beginsNumber w = true →
        2 ≤ w.count '.' → Faulty (w ++ rest) (.number (String.ofList w))

/-! ### From a cut to a fault -/

theorem QuotedEnd.push_eq_unclosed {front : List Char} {q : QuotedEnd}
    (h : q.push front = .unclosed) : q = .unclosed := by
  cases q with
  | unclosed => rfl
  | _ => cases h

theorem QuotedEnd.push_eq_dangling {front : List Char} {q : QuotedEnd}
    (h : q.push front = .dangling) : q = .dangling := by
  cases q with
  | dangling => rfl
  | _ => cases h

/-- The pairs of a backslash and what it escapes come first, so what is left is neither. -/
theorem ne_backslash_of_splitQuoted {c : Char} {cs : List Char} (hlast : c = '\\' → cs ≠ [])
    (hpair : ∀ c' cs', c = '\\' → cs ≠ c' :: cs') : c ≠ '\\' := by
  intro hc
  cases cs with
  | nil => exact hlast hc rfl
  | cons c' cs' => exact hpair c' cs' hc rfl

theorem openQuoted_of_splitQuoted {d : Char} {cs : List Char}
    (h : splitQuoted d cs = .unclosed) : OpenQuoted d cs := by
  fun_induction splitQuoted d cs with
  | case1 => exact .nil
  | case2 => cases h
  | case3 c cs ih => exact .escaped c (ih (QuotedEnd.push_eq_unclosed h))
  | case4 => cases h
  | case5 c cs hlast hpair hne ih =>
    exact .plain (ne_backslash_of_splitQuoted hlast hpair) hne (ih (QuotedEnd.push_eq_unclosed h))

theorem exists_openQuoted_of_splitQuoted {d : Char} {cs : List Char}
    (h : splitQuoted d cs = .dangling) : ∃ raw, cs = raw ++ ['\\'] ∧ OpenQuoted d raw := by
  fun_induction splitQuoted d cs with
  | case1 => cases h
  | case2 => exact ⟨[], rfl, .nil⟩
  | case3 c cs ih =>
    obtain ⟨raw, rfl, hraw⟩ := ih (QuotedEnd.push_eq_dangling h)
    exact ⟨'\\' :: c :: raw, rfl, .escaped c hraw⟩
  | case4 => cases h
  | case5 c cs hlast hpair hne ih =>
    obtain ⟨raw, rfl, hraw⟩ := ih (QuotedEnd.push_eq_dangling h)
    exact ⟨c :: raw, rfl, .plain (ne_backslash_of_splitQuoted hlast hpair) hne hraw⟩

theorem faulty_of_cutNotEqual {cs : List Char} {fault : Fault}
    (h : cutNotEqual cs = .error fault) : Faulty ('!' :: cs) fault := by
  rw [cutNotEqual.eq_def] at h
  split at h
  · cases h
  · next c cs hne =>
    cases h
    exact .mark cs hne
  · cases h
    exact .lastMark

theorem faulty_of_cutQuoted (d : Delimiter) {cs : List Char} {fault : Fault}
    (h : cutQuoted d.char cs = .error fault) : Faulty (d.char :: cs) fault := by
  rw [cutQuoted] at h
  split at h
  · cases h
  · next hs =>
    cases h
    exact .unclosed d (openQuoted_of_splitQuoted hs)
  · next hs =>
    cases h
    obtain ⟨raw, rfl, hraw⟩ := exists_openQuoted_of_splitQuoted hs
    exact .dangling d hraw

theorem Lexeme.ofWord_eq_error {w : List Char} {fault : Fault} (h : ofWord w = .error fault) :
    beginsNumber w = true ∧ 2 ≤ w.count '.' ∧ fault = .number (String.ofList w) := by
  rw [ofWord] at h
  split at h
  · next hnumber =>
    split at h
    · next hpoints =>
      cases h
      exact ⟨hnumber, hpoints, rfl⟩
    · cases h
  · split at h
    · cases h
    · split at h <;> cases h

theorem faulty_of_cutWord {c : Char} (hc : isWordChar c = true) {cs : List Char} {fault : Fault}
    (h : cutWord c cs = .error fault) : Faulty (c :: cs) fault := by
  have hword : ∀ d ∈ c :: cs.takeWhile isWordChar, isWordChar d = true :=
    List.forall_mem_cons.mpr ⟨hc, fun d hd => List.all_eq_true.mp List.all_takeWhile d hd⟩
  have htext : c :: cs = c :: cs.takeWhile isWordChar ++ cs.dropWhile isWordChar := by
    rw [List.cons_append, List.takeWhile_append_dropWhile]
  rw [cutWord] at h
  split at h
  · cases h
  · next hw =>
    cases h
    obtain ⟨hnumber, hpoints, rfl⟩ := Lexeme.ofWord_eq_error hw
    rw [htext]
    exact .number hword (stops_dropWhile _ _) hnumber hpoints

/-- **A cut fails for a reason.** -/
theorem faulty_of_cut {c : Char} {cs : List Char} {fault : Fault} (h : cut c cs = .error fault) :
    Faulty (c :: cs) fault := by
  rw [cut.eq_def] at h
  -- The cases are the characters that a token begins with, in the order of the cut.
  split at h
  · cases h
  · cases h
  · cases h
  · cases h
  · cases h
  · cases h
  · exact faulty_of_cutNotEqual h
  · next heq hcontains hopen hclose hgt hlt hne =>
    split at h
    · cases h
    · next hspace =>
      split at h
      · next hq => exact faulty_of_cutQuoted ⟨c, hq⟩ h
      · have hc : isWordChar c = true := by
          simp only [isWordChar, isOperatorChar]
          simp_all
        exact faulty_of_cutWord hc h

/-! ### What comes before a fault -/

theorem Stops.of_append {p : Char → Bool} {text rest : List Char} (h : Stops p (text ++ rest)) :
    Stops p text := by
  intro c hc
  have hc : text.head? = some c := hc
  exact h c (by rw [List.head?_append, hc]; rfl)

/-- A piece is the same piece where less follows it. -/
theorem Piece.before {w text rest : List Char} {x : Lexeme} (h : Piece w x (text ++ rest)) :
    Piece w x text := by
  cases h with
  | sign _ hs => exact .sign text hs
  | gt hstop => exact .gt hstop.of_append
  | lt hstop => exact .lt hstop.of_append
  | blank hc hstop => exact .blank hc hstop.of_append
  | quoted d _ hraw => exact .quoted d text hraw
  | word hq hc hstop hx => exact .word hq hc hstop.of_append hx

/-- Segments can be cut off the text that they make up, and nothing is left of it. -/
theorem Segments.before {text rest : List Char} {ss : List Segment} (h : Segments text ss rest) :
    Segments (joinText ss) ss [] := by
  induction h with
  | nil => exact .nil []
  | cons hpiece hss ih =>
    rw [hss.text_eq] at hpiece
    exact .cons hpiece.before ih

/-- **A scan that fails has come to a fault.**  What it found before makes up the text before
the fault. -/
theorem exists_segments_of_failure {offset : Nat} {text : List Char} {f : Failure}
    (h : (scanFrom offset text).failure = some f) :
    ∃ ss rest, Segments text ss rest ∧ (scanFrom offset text).tokens = place offset ss ∧
      Faulty rest f.fault ∧
      f.position = f.fault.position (offset + byteLength (joinText ss)) rest := by
  fun_induction scanFrom offset text with
  | case1 offset => cases h
  | case2 offset c cs k hcut ih =>
    obtain ⟨ss, rest, hss, hts, hfaulty, hposition⟩ := ih h
    obtain ⟨w, htext, hsize, hpiece⟩ := piece_of_cut hcut
    refine ⟨⟨w, k.lexeme⟩ :: ss, rest, ?_, ?_, hfaulty, ?_⟩
    · rw [htext]
      exact .cons hpiece hss
    · rw [place, ← hsize, ← hts]
      rfl
    · show f.position = f.fault.position (offset + byteLength (w ++ joinText ss)) rest
      rw [hposition, hsize, byteLength_append, Nat.add_assoc]
  | case3 offset c cs fault hcut =>
    cases h
    exact ⟨[], c :: cs, .nil _, rfl, faulty_of_cut hcut, rfl⟩

theorem tokenize_eq_error_iff {query : String} {err : Error} :
    tokenize query = .error err ↔ ∃ f, (scan query).failure = some f ∧ err = f.error query := by
  rw [tokenize]
  cases (scan query).failure with
  | none => simp
  | some f => simp [eq_comm]

/-! ### The query as a whole -/

/-- No token is refused with a lexical error. -/
theorem State.ne_lexical_of_step {query : String} {s : State} {t : Token} {err : Error}
    (h : s.step query t = .error err) (fault : Fault) (position : Nat) (text : String) :
    err ≠ .lexical fault position text := by
  rintro rfl
  cases refuses_of_step h

/-- An error that is due to a token before a place, not to a fault. -/
def Error.StandsBefore (err : Error) (offset : Nat) : Prop :=
  (∀ fault position query, err ≠ .lexical fault position query) ∧
    ∀ p, err.misplaced? = some p → p < offset

/-- Tokens are refused with errors that name one of them. -/
theorem State.standsBefore_of_run {query : String} {s : State} {ts : List Token} {err : Error}
    {offset : Nat} (h : s.run query ts = .error err) (hts : ∀ t ∈ ts, t.offset < offset) :
    err.StandsBefore offset := by
  obtain ⟨before, t, after, s', rfl, -, hstep⟩ := exists_step_of_run h
  refine ⟨ne_lexical_of_step hstep, fun p hp => ?_⟩
  rw [← offset_of_step hstep hp]
  exact hts t (by simp)

/-- A fault after some tokens is the error of the query, unless the tokens cannot be read. -/
theorem parse_of_failure {query : String} {f : Failure} (hf : (scan query).failure = some f)
    {s : State} (hrun : State.start.run query (scan query).tokens = .ok s) :
    parse query = .error (f.error query) := by
  rw [parse, hrun, hf]

theorem parse_of_run_eq_error {query : String} {err : Error}
    (hrun : State.start.run query (scan query).tokens = .error err) :
    parse query = .error err := by
  rw [parse, hrun]

/-- A query goes wrong after `before`: no token can be cut off what follows.  The place that
is named is the end of `before`, but for a dangling backslash it is the last byte. -/
structure FaultAt (query : String) (fault : Fault) (position : Nat) (before after : String) :
    Prop where
  text : query = before ++ after
  faulty : Faulty after.toList fault
  boundary : String.Pos.Raw.IsValid query ⟨position⟩
  start : fault ≠ .dangling → position = before.utf8ByteSize
  last : fault = .dangling → position + 1 = query.utf8ByteSize ∧
    slice query position query.utf8ByteSize = "\\"

/-- A fault is named by its first character, but a dangling backslash by itself. -/
theorem Faulty.exists_append {rest : List Char} {fault : Fault} (h : Faulty rest fault)
    (offset : Nat) :
    ∃ l r, rest = l ++ r ∧ fault.position offset rest = offset + byteLength l ∧
      (fault ≠ .dangling → l = []) ∧ (fault = .dangling → r = ['\\']) := by
  cases h with
  | @dangling d raw _ =>
    refine ⟨d.char :: raw, ['\\'], rfl, ?_, fun hne => absurd rfl hne, fun _ => rfl⟩
    show offset + byteLength ((d.char :: raw) ++ ['\\']) - 1 = _
    rw [byteLength_append]
    show offset + (byteLength (d.char :: raw) + 1) - 1 = _
    omega
  | _ => exact ⟨[], _, rfl, rfl, fun _ => rfl, nofun⟩

theorem Segments.faultAt {query : String} {ss : List Segment} {rest : List Char} {fault : Fault}
    (hss : Segments query.toList ss rest) (hfaulty : Faulty rest fault) :
    FaultAt query fault (fault.position (byteLength (joinText ss)) rest)
      (String.ofList (joinText ss)) (String.ofList rest) := by
  obtain ⟨l, r, rfl, hposition, hstart, hlast⟩ := hfaulty.exists_append (byteLength (joinText ss))
  have hquery : query = String.ofList (joinText ss ++ l ++ r) := by
    rw [List.append_assoc, ← hss.text_eq, String.ofList_toList]
  have hsize : query.utf8ByteSize = byteLength (joinText ss ++ l ++ r) := by
    rw [← byteLength_toList, hquery, String.toList_ofList]
  rw [hposition, ← byteLength_append]
  constructor
  case text => rw [← String.ofList_append, ← hss.text_eq, String.ofList_toList]
  case faulty => rwa [String.toList_ofList]
  case boundary =>
    rw [String.Pos.Raw.isValid_iff_exists_append]
    refine ⟨String.ofList (joinText ss ++ l), String.ofList r, ?_, ?_⟩
    · rw [hquery, String.ofList_append]
    · rw [String.rawEndPos_ofList, byteLength_eq_utf8Len]
  case start =>
    intro hne
    rw [hstart hne, List.append_nil, ← byteLength_toList, String.toList_ofList]
  case last =>
    intro hdangling
    obtain rfl := hlast hdangling
    have hslice := slice_of_append (joinText ss ++ l) ['\\'] []
    rw [List.append_nil, ← hquery, ← hsize] at hslice
    refine ⟨?_, hslice⟩
    rw [hsize, byteLength_append _ ['\\']]
    rfl

/-- **Lexical errors name the place of the fault.**  If a query cannot be cut into tokens, it
is some text that can, followed by a fault.  The error is the one of this fault, at the
place where the tokens before it end, or at a dangling backslash that is the last byte of
the query.  If these tokens can be read, the query is refused with the same error, and
otherwise with the error of a token before the fault. -/
theorem tokenize_fault_located (query : String) (err : Error) (h : tokenize query = .error err) :
    ∃ fault position before after ts, err = .lexical fault position query ∧
      FaultAt query fault position before after ∧
      tokenize before = .ok (ts ++ [⟨.ending, before.utf8ByteSize⟩]) ∧
      (∀ s, State.start.run query ts = .ok s → parse query = .error err) ∧
      ∀ e, State.start.run query ts = .error e →
        parse query = .error e ∧ e.StandsBefore before.utf8ByteSize := by
  obtain ⟨f, hf, rfl⟩ := tokenize_eq_error_iff.mp h
  obtain ⟨ss, rest, hss, hts, hfaulty, hposition⟩ := exists_segments_of_failure hf
  rw [Nat.zero_add] at hposition
  refine ⟨f.fault, f.position, String.ofList (joinText ss), String.ofList rest, place 0 ss, rfl,
    ?_, ?_, ?_, ?_⟩
  · rw [hposition]
    exact hss.faultAt hfaulty
  · refine tokenize_eq_ok_iff.mpr ?_
    rw [scan, String.toList_ofList, scanFrom_of_segments hss.before]
    exact ⟨rfl, rfl⟩
  · intro s hrun
    exact parse_of_failure hf (by rwa [scan, hts])
  · intro e hrun
    refine ⟨parse_of_run_eq_error (by rwa [scan, hts]), State.standsBefore_of_run hrun ?_⟩
    rw [← byteLength_toList, String.toList_ofList]
    exact offset_lt_of_mem_place fun s hs => (hss.alone s hs).ne_nil

/-- A dangling backslash after characters of two bytes, where the tokens before it can be
read. -/
theorem fault_located_dangling :
    let query := "é=\"ü\\"
    tokenize query = .error (.lexical .dangling 6 query) ∧
    ∃ fault position before after ts, Error.lexical .dangling 6 query =
        .lexical fault position query ∧
      FaultAt query fault position before after ∧
      tokenize before = .ok (ts ++ [⟨.ending, before.utf8ByteSize⟩]) ∧
      (∀ s, State.start.run query ts = .ok s →
        parse query = .error (.lexical .dangling 6 query)) ∧
      ∀ e, State.start.run query ts = .error e →
        parse query = .error e ∧ e.StandsBefore before.utf8ByteSize := by
  intro query
  have htok : tokenize query = .error (.lexical .dangling 6 query) := by decide +kernel
  exact ⟨htok, tokenize_fault_located query _ htok⟩

end FilterQuery
