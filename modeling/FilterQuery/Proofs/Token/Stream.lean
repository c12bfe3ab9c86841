/-
A reader gives one stream of tokens, whatever way it is driven.

A reader can be asked for the next token (`next`), for the next token of a loop (`pull`),
and it can be told to skip blanks or to keep them.  The three may be mixed at will.

* **`stream`** — what there is to read of a text: its tokens, and then its end or its
  fault again and again;
* **`Cursor.Step`**, **`Cursor.Run`** — what an honest reader of a stream answers.  It
  knows its place in the stream, whether blanks are skipped, and whether the loop is over;
* **`Reader.next_spec`** — what one call of `next` takes from what lies ahead;
* **`Reader.exists_step`**, **`Reader.exists_run`** — a reader is such a cursor, for one
  call and for every list of calls;
* **`reader_reads_stream`** — all together, with what follows for calls after the end.

Design notes.  What lies ahead of a reader (`Reader.ahead`) is a stream as well.  The
invariant `Reader.At` says that it is the stream of the text from the cursor's place on.
At the end of a text the cursor moves on and the reader does not, which makes no
difference, because the stream does not change any more.
-/
import FilterQuery.Proofs.Token.Piece
import FilterQuery.Token.Reader

namespace FilterQuery

/-! ### Streams -/

/-- What there is to read, by number: the tokens, and then the end of the text or the
fault, over and over. -/
def Scan.entry (s : Scan) (query : String) (n : Nat) : Except Error Token :=
  match s.tokens[n]? with
  | some t => .ok t
  | none =>
    match s.failure with
    | some f => .error (f.error query)
    | none => .ok ⟨.ending, query.utf8ByteSize⟩

/-- What there is to read of a text. -/
def stream (query : String) : Nat → Except Error Token :=
  (scan query).entry query

/-- An entry after which nothing new comes: the end of the text, or a fault. -/
def IsLast : Except Error Token → Prop
  | .ok t => t.lexeme = .ending
  | .error _ => True

def IsBlank : Except Error Token → Prop
  | .ok t => t.lexeme = .blank
  | .error _ => False

theorem Scan.entry_push_zero (s : Scan) (t : Token) (query : String) :
    (s.push t).entry query 0 = .ok t :=
  rfl

theorem Scan.entry_push_succ (s : Scan) (t : Token) (query : String) (n : Nat) :
    (s.push t).entry query (n + 1) = s.entry query n :=
  rfl

theorem stream_of_lt {query : String} {n : Nat} (h : n < (scan query).tokens.length) :
    ∃ t, stream query n = .ok t ∧ t.lexeme ≠ .ending := by
  have hget := List.getElem?_eq_getElem h
  refine ⟨(scan query).tokens[n], ?_, ?_⟩
  · rw [stream, Scan.entry, hget]
  · exact lexeme_ne_ending_of_mem_scanFrom _ (List.getElem_mem h)

theorem stream_of_ge {query : String} {n : Nat} (h : (scan query).tokens.length ≤ n) :
    stream query n =
      match (scan query).failure with
      | some f => .error (f.error query)
      | none => .ok ⟨.ending, query.utf8ByteSize⟩ := by
  rw [stream, Scan.entry, List.getElem?_eq_none h]

/-- From an entry after which nothing new comes, the stream stays the same. -/
theorem stream_eq_of_isLast {query : String} {j n : Nat} (hlast : IsLast (stream query j))
    (hn : j ≤ n) : stream query n = stream query j := by
  have hj : (scan query).tokens.length ≤ j := by
    by_contra hlt
    obtain ⟨t, ht, hne⟩ := stream_of_lt (Nat.lt_of_not_le hlt)
    rw [ht] at hlast
    exact hne hlast
  rw [stream_of_ge hj, stream_of_ge (Nat.le_trans hj hn)]

/-- If a text has tokens, they are the stream, with the end of the text repeated. -/
theorem stream_of_tokenize_ok {query : String} {ts : List Token} (h : tokenize query = .ok ts)
    (n : Nat) : stream query n = .ok (ts.getD n ⟨.ending, query.utf8ByteSize⟩) := by
  obtain ⟨hfailure, rfl⟩ := tokenize_eq_ok_iff.mp h
  by_cases hn : n < (scan query).tokens.length
  · have hget := List.getElem?_eq_getElem hn
    rw [stream, Scan.entry, hget, List.getD_eq_getElem?_getD, List.getElem?_append_left hn, hget]
    rfl
  · have hge : (scan query).tokens.length ≤ n := by omega
    rw [stream_of_ge hge, hfailure, List.getD_eq_getElem?_getD, List.getElem?_append_right hge]
    cases n - (scan query).tokens.length with
    | zero => rfl
    | succ m => rfl

/-- If a text has a fault, the stream is the fault after the tokens before it. -/
theorem stream_of_tokenize_error {query : String} {e : Error} (h : tokenize query = .error e) :
    ∃ m, (∀ n, n < m → ∃ t, stream query n = .ok t ∧ t.lexeme ≠ .ending) ∧
      ∀ n, m ≤ n → stream query n = .error e := by
  refine ⟨(scan query).tokens.length, fun n hn => stream_of_lt hn, fun n hn => ?_⟩
  rw [stream_of_ge hn]
  rw [tokenize] at h
  cases hf : (scan query).failure with
  | none =>
    simp only [hf] at h
    cases h
  | some f =>
    simp only [hf] at h
    cases h
    rfl

/-! ### Calls -/

/-- What a reader can be asked for or told. -/
inductive Call
  | next
  | pull
  | skip (blanks : Bool)
deriving DecidableEq

/-- What it answers: an entry, an item of the loop or nothing. -/
inductive Reply
  | entry (x : Except Error Token)
  | item (x : Option (Except Error Token))
  | none
deriving DecidableEq

namespace Reader

def answer (r : Reader) : Call → Reply × Reader
  | .next => (.entry r.next.1, r.next.2)
  | .pull => (.item r.pull.1, r.pull.2)
  | .skip blanks => (.none, { r with skipBlanks := blanks })

/-- The answers to some calls, one after the other. -/
def replies (r : Reader) : List Call → List Reply
  | [] => []
  | call :: calls => (r.answer call).1 :: (r.answer call).2.replies calls

/-- The reader after some calls. -/
def after (r : Reader) : List Call → Reader
  | [] => r
  | call :: calls => (r.answer call).2.after calls

theorem after_append (r : Reader) (calls calls' : List Call) :
    r.after (calls ++ calls') = (r.after calls).after calls' := by
  induction calls generalizing r with
  | nil => rfl
  | cons call calls ih => exact ih _

end Reader

/-- A place in a stream, with the two things that a reader remembers beside it. -/
structure Cursor where
  /-- The number of entries that lie behind. -/
  place : Nat
  skipBlanks : Bool
  /-- The loop is over. -/
  finished : Bool

/-- The first entry from place `i` on that is not passed over is the one at place `j`. -/
structure Reaches (S : Nat → Except Error Token) (skip : Bool) (i j : Nat) : Prop where
  le : i ≤ j
  passed : ∀ n, i ≤ n → n < j → skip = true ∧ IsBlank (S n)
  met : ¬ (skip = true ∧ IsBlank (S j))

namespace Cursor

def start : Cursor :=
  ⟨0, false, false⟩

/-- What is answered at a cursor, and where the cursor stands then. -/
inductive Step (S : Nat → Except Error Token) : Cursor → Call → Reply → Cursor → Prop
  | next {c : Cursor} {j : Nat} : Reaches S c.skipBlanks c.place j →
      Step S c .next (.entry (S j)) { c with place := j + 1 }
  | token {c : Cursor} {j : Nat} {t : Token} : c.finished = false →
      Reaches S c.skipBlanks c.place j → S j = .ok t → t.lexeme ≠ .ending →
      Step S c .pull (.item (some (.ok t))) { c with place := j + 1 }
  | ending {c : Cursor} {j : Nat} {t : Token} : c.finished = false →
      Reaches S c.skipBlanks c.place j → S j = .ok t → t.lexeme = .ending →
      Step S c .pull (.item none) { c with place := j + 1, finished := true }
  | fault {c : Cursor} {j : Nat} {e : Error} : c.finished = false →
      Reaches S c.skipBlanks c.place j → S j = .error e →
      Step S c .pull (.item (some (.error e))) { c with place := j + 1, finished := true }
  | finished {c : Cursor} : c.finished = true → Step S c .pull (.item none) c
  | skip {c : Cursor} (blanks : Bool) :
      Step S c (.skip blanks) .none { c with skipBlanks := blanks }

/-- What is answered to some calls, one after the other. -/
inductive Run (S : Nat → Except Error Token) : Cursor → List Call → List Reply → Cursor → Prop
  | nil (c : Cursor) : Run S c [] [] c
  | cons {c c' c'' : Cursor} {call : Call} {calls : List Call} {reply : Reply}
      {replies : List Reply} : Step S c call reply c' → Run S c' calls replies c'' →
      Run S c (call :: calls) (reply :: replies) c''

variable {S : Nat → Except Error Token} {c c' : Cursor}

/-- No call leads back, and no call starts the loop again. -/
theorem Step.onward {call : Call} {reply : Reply} (h : Step S c call reply c') :
    c.place ≤ c'.place ∧ (c.finished = true → c'.finished = true) := by
  cases h with
  | next hj => exact ⟨Nat.le_succ_of_le hj.le, id⟩
  | token _ hj _ _ => exact ⟨Nat.le_succ_of_le hj.le, id⟩
  | ending _ hj _ _ => exact ⟨Nat.le_succ_of_le hj.le, fun _ => rfl⟩
  | fault _ hj _ => exact ⟨Nat.le_succ_of_le hj.le, fun _ => rfl⟩
  | finished _ => exact ⟨Nat.le_refl _, id⟩
  | skip _ => exact ⟨Nat.le_refl _, id⟩

theorem Step.finished_of_pull {x : Option (Except Error Token)}
    (h : Step S c .pull (.item x) c') (hx : x = none ∨ ∃ e, x = some (.error e)) :
    c'.finished = true := by
  cases h with
  | token _ _ _ _ => rcases hx with hx | ⟨e, hx⟩ <;> cases hx
  | ending _ _ _ _ => rfl
  | fault _ _ _ => rfl
  | finished h => exact h

theorem Run.onward {calls : List Call} {replies : List Reply} (h : Run S c calls replies c') :
    c.place ≤ c'.place ∧ (c.finished = true → c'.finished = true) := by
  induction h with
  | nil => exact ⟨Nat.le_refl _, id⟩
  | cons hstep _ ih =>
    obtain ⟨hle, hfinished⟩ := hstep.onward
    exact ⟨Nat.le_trans hle ih.1, ih.2 ∘ hfinished⟩

end Cursor

/-! ### Readers -/

namespace Reader

/-- What lies ahead of a reader. -/
def ahead (r : Reader) (n : Nat) : Except Error Token :=
  match r.failure with
  | some f => .error (f.error r.query)
  | none => (scanFrom r.offset r.rest).entry r.query n

/-- What lies ahead ends where the text ends. -/
def Sound (r : Reader) : Prop :=
  r.offset + byteLength r.rest = r.query.utf8ByteSize

theorem ofQuery_sound (query : String) : (ofQuery query).Sound := by
  show 0 + byteLength query.toList = query.utf8ByteSize
  rw [byteLength_toList, Nat.zero_add]

end Reader

theorem Scan.entry_fault (f : Failure) (query : String) (n : Nat) :
    Scan.entry ⟨[], some f⟩ query n = .error (f.error query) :=
  rfl

theorem Scan.entry_empty (query : String) (n : Nat) :
    Scan.entry ⟨[], none⟩ query n = .ok ⟨.ending, query.utf8ByteSize⟩ :=
  rfl

theorem scanFrom_nil (offset : Nat) : scanFrom offset [] = ⟨[], none⟩ := by
  rw [scanFrom]

theorem scanFrom_of_cut (offset : Nat) {c : Char} {cs : List Char} {k : Cut}
    (h : cut c cs = .ok k) :
    scanFrom offset (c :: cs) = (scanFrom (offset + k.size) k.rest).push ⟨k.lexeme, offset⟩ := by
  rw [scanFrom]
  split
  · next k' hk =>
    cases h.symm.trans hk
    rfl
  · next hk => cases h.symm.trans hk

theorem scanFrom_of_fault (offset : Nat) {c : Char} {cs : List Char} {fault : Fault}
    (h : cut c cs = .error fault) :
    scanFrom offset (c :: cs) = ⟨[], some ⟨fault, fault.position offset (c :: cs)⟩⟩ := by
  rw [scanFrom]
  split
  · next hk => cases h.symm.trans hk
  · next fault' hk =>
    cases h.symm.trans hk
    rfl

theorem Reaches.here {S : Nat → Except Error Token} {skip : Bool} {i : Nat}
    (h : ¬ (skip = true ∧ IsBlank (S i))) : Reaches S skip i i :=
  ⟨Nat.le_refl i, fun n hi hn => by omega, h⟩

theorem Reaches.eq_of_keep {S : Nat → Except Error Token} {i j : Nat} (h : Reaches S false i j) :
    j = i := by
  by_contra hne
  have hle := h.le
  have hskip := (h.passed i (Nat.le_refl i) (by omega)).1
  cases hskip

namespace Reader

/-- The reader behind a token that was cut off. -/
def behind (r : Reader) (k : Cut) : Reader :=
  { r with offset := r.offset + k.size, rest := k.rest }

/-- A reader has gone on to `r'` and left `j` entries and one more behind. -/
structure Takes (r : Reader) (j : Nat) (r' : Reader) : Prop where
  reaches : Reaches r.ahead r.skipBlanks 0 j
  ahead : ∀ n, r'.ahead n = r.ahead (j + 1 + n)
  sound : r'.Sound
  skipBlanks : r'.skipBlanks = r.skipBlanks
  finished : r'.finished = r.finished

/-- Where the same entry comes again and again, a reader may stay. -/
theorem takes_of_constant {r r' : Reader} {x : Except Error Token} (hx : ¬ IsBlank x)
    (h : ∀ n, r.ahead n = x) (h' : ∀ n, r'.ahead n = x) (hsound : r'.Sound)
    (hskip : r'.skipBlanks = r.skipBlanks) (hfinished : r'.finished = r.finished) :
    r.Takes 0 r' := by
  refine ⟨.here ?_, ?_, hsound, hskip, hfinished⟩
  · rw [h]
    exact fun hblank => hx hblank.2
  · intro n
    rw [h', h]

section

variable {r : Reader} {c : Char} {cs : List Char} {k : Cut}

theorem sound_behind (hr : r.Sound) (hrest : r.rest = c :: cs) (hcut : cut c cs = .ok k) :
    (r.behind k).Sound := by
  obtain ⟨w, htext, hsize, -⟩ := piece_of_cut hcut
  have hlength : byteLength r.rest = k.size + byteLength k.rest := by
    rw [hrest, htext, byteLength_append, hsize]
  show r.offset + k.size + byteLength k.rest = r.query.utf8ByteSize
  rw [Sound] at hr
  omega

theorem ahead_of_cut (hf : r.failure = none) (hrest : r.rest = c :: cs) (hcut : cut c cs = .ok k) :
    r.ahead 0 = .ok ⟨k.lexeme, r.offset⟩ ∧ ∀ n, r.ahead (n + 1) = (r.behind k).ahead n := by
  have hscan := scanFrom_of_cut r.offset hcut
  constructor
  · rw [ahead, hf, hrest]
    show (scanFrom r.offset (c :: cs)).entry r.query 0 = _
    rw [hscan, Scan.entry_push_zero]
  · intro n
    have hbehind : (r.behind k).ahead n =
        (scanFrom (r.offset + k.size) k.rest).entry r.query n := by
      rw [ahead, behind, hf]
    rw [hbehind, ahead, hf, hrest]
    show (scanFrom r.offset (c :: cs)).entry r.query (n + 1) = _
    rw [hscan, Scan.entry_push_succ]

end

/-- **One call of `next`** gives the first entry ahead that is not passed over, and leaves
what comes after it. -/
theorem next_spec (r : Reader) (hr : r.Sound) :
    ∃ j, r.Takes j r.next.2 ∧ r.next.1 = r.ahead j := by
  fun_induction Reader.next r with
  | case1 r f hf =>
    have hahead : ∀ n, r.ahead n = .error (f.error r.query) := by
      intro n
      rw [ahead, hf]
    exact ⟨0, takes_of_constant id hahead hahead hr rfl rfl, (hahead 0).symm⟩
  | case2 r hf hrest =>
    have hend : r.offset = r.query.utf8ByteSize := by
      rw [Sound, hrest] at hr
      exact hr
    have hahead : ∀ n, r.ahead n = .ok ⟨.ending, r.offset⟩ := by
      intro n
      rw [ahead, hf, hrest, hend]
      show (scanFrom _ []).entry r.query n = _
      rw [scanFrom_nil, Scan.entry_empty]
    exact ⟨0, takes_of_constant Lexeme.noConfusion hahead hahead hr rfl rfl, (hahead 0).symm⟩
  | case3 r hf c cs hrest fault hcut f =>
    have hahead : ∀ n, r.ahead n = .error (f.error r.query) := by
      intro n
      rw [ahead, hf, hrest]
      show (scanFrom r.offset (c :: cs)).entry r.query n = _
      rw [scanFrom_of_fault r.offset hcut, Scan.entry_fault]
    exact ⟨0, takes_of_constant id hahead (fun _ => rfl) hr rfl rfl, (hahead 0).symm⟩
  | case4 r hf c cs hrest k hcut r' hskip ih =>
    -- A blank is passed over, and all that is read comes after it.
    obtain ⟨hzero, hsucc⟩ := ahead_of_cut hf hrest hcut
    obtain ⟨j, htakes, hreply⟩ := ih (sound_behind hr hrest hcut)
    refine ⟨j + 1, ⟨⟨Nat.zero_le _, ?_, ?_⟩, ?_, htakes.sound, htakes.skipBlanks,
      htakes.finished⟩, ?_⟩
    · intro n _ hn
      cases n with
      | zero =>
        rw [hzero]
        exact hskip
      | succ n =>
        rw [hsucc]
        exact htakes.reaches.passed n (Nat.zero_le n) (Nat.lt_of_succ_lt_succ hn)
    · rw [hsucc]
      exact htakes.reaches.met
    · intro n
      rw [htakes.ahead, show j + 1 + 1 + n = j + 1 + n + 1 by omega, hsucc]
      rfl
    · rw [hreply, hsucc]
      rfl
  | case5 r hf c cs hrest k hcut r' hskip =>
    obtain ⟨hzero, hsucc⟩ := ahead_of_cut hf hrest hcut
    refine ⟨0, ⟨.here ?_, ?_, sound_behind hr hrest hcut, rfl, rfl⟩, hzero.symm⟩
    · rw [hzero]
      exact hskip
    · intro n
      rw [show 0 + 1 + n = n + 1 by omega, hsucc]
      rfl

/-! ### Readers as cursors -/

/-- A reader of a text stands at a cursor of its stream. -/
structure At (query : String) (r : Reader) (c : Cursor) : Prop where
  ahead : ∀ n, r.ahead n = stream query (c.place + n)
  sound : r.Sound
  skipBlanks : r.skipBlanks = c.skipBlanks
  finished : r.finished = c.finished

theorem ofQuery_at (query : String) : (ofQuery query).At query .start where
  ahead n := by
    show (scan query).entry query n = _
    rw [stream, show Cursor.start.place + n = n from Nat.zero_add n]
  sound := ofQuery_sound query
  skipBlanks := rfl
  finished := rfl

variable {query : String} {r : Reader} {c : Cursor}

/-- The next entry of a reader is the one that its cursor reaches. -/
theorem At.next (h : r.At query c) :
    ∃ j, Reaches (stream query) c.skipBlanks c.place j ∧ r.next.1 = stream query j ∧
      r.next.2.At query { c with place := j + 1 } := by
  obtain ⟨j, htakes, hreply⟩ := r.next_spec h.sound
  have hreaches := htakes.reaches
  refine ⟨c.place + j, ⟨Nat.le_add_right _ _, ?_, ?_⟩, ?_, ?_⟩
  · intro n hle hlt
    have hpassed := hreaches.passed (n - c.place) (Nat.zero_le _) (by omega)
    rw [h.ahead, h.skipBlanks, show c.place + (n - c.place) = n by omega] at hpassed
    exact hpassed
  · have hmet := hreaches.met
    rw [h.ahead, h.skipBlanks] at hmet
    exact hmet
  · rw [hreply, h.ahead]
  · refine ⟨?_, htakes.sound, ?_, ?_⟩
    · intro n
      rw [htakes.ahead, h.ahead]
      show stream query (c.place + (j + 1 + n)) = stream query (c.place + j + 1 + n)
      rw [show c.place + (j + 1 + n) = c.place + j + 1 + n by omega]
    · rw [htakes.skipBlanks, h.skipBlanks]
    · rw [htakes.finished, h.finished]

theorem pull_of_finished (h : r.finished = true) : r.pull = (none, r) := by
  rw [pull, if_pos h]

/-- **One call** answers what the cursor says. -/
theorem exists_step (h : r.At query c) (call : Call) :
    ∃ c', Cursor.Step (stream query) c call (r.answer call).1 c' ∧
      (r.answer call).2.At query c' := by
  cases call with
  | next =>
    obtain ⟨j, hreaches, hreply, hat⟩ := h.next
    refine ⟨{ c with place := j + 1 }, ?_, hat⟩
    show Cursor.Step _ c .next (.entry r.next.1) _
    rw [hreply]
    exact .next hreaches
  | skip blanks => exact ⟨_, .skip blanks, ⟨h.ahead, h.sound, rfl, h.finished⟩⟩
  | pull =>
    show ∃ c', Cursor.Step _ c .pull (.item r.pull.1) c' ∧ r.pull.2.At query c'
    by_cases hfinished : r.finished = true
    · rw [pull_of_finished hfinished]
      rw [h.finished] at hfinished
      exact ⟨c, .finished hfinished, h⟩
    · have hopen : c.finished = false := by
        rw [← h.finished]
        exact Bool.eq_false_iff.mpr hfinished
      obtain ⟨j, hreaches, hreply, hat⟩ := h.next
      rw [pull, if_neg hfinished]
      split
      · next t r' hnext =>
        rw [hnext] at hreply hat
        split
        · next hend =>
          exact ⟨_, .ending hopen hreaches hreply.symm hend,
            ⟨hat.ahead, hat.sound, hat.skipBlanks, rfl⟩⟩
        · next hend => exact ⟨_, .token hopen hreaches hreply.symm hend, hat⟩
      · next e r' hnext =>
        rw [hnext] at hreply hat
        exact ⟨_, .fault hopen hreaches hreply.symm, ⟨hat.ahead, hat.sound, hat.skipBlanks, rfl⟩⟩

/-- **Every list of calls** is answered as the cursor says. -/
theorem exists_run (h : r.At query c) (calls : List Call) :
    ∃ c', Cursor.Run (stream query) c calls (r.replies calls) c' ∧ (r.after calls).At query c' := by
  induction calls generalizing r c with
  | nil => exact ⟨c, .nil c, h⟩
  | cons call calls ih =>
    obtain ⟨c₁, hstep, hat₁⟩ := exists_step h call
    obtain ⟨c₂, hrun, hat₂⟩ := ih hat₁
    exact ⟨c₂, .cons hstep hrun, hat₂⟩

/-- The entry after which nothing new comes is given again. -/
theorem next_again (h : r.At query c) (hlast : IsLast r.next.1) (calls : List Call) :
    (r.next.2.after calls).next.1 = r.next.1 := by
  obtain ⟨j, -, hreply, hat⟩ := h.next
  obtain ⟨c', hrun, hat'⟩ := exists_run hat calls
  obtain ⟨j', hreaches, hreply', -⟩ := hat'.next
  have hle : j + 1 ≤ c'.place := hrun.onward.1
  rw [hreply] at hlast ⊢
  rw [hreply']
  exact stream_eq_of_isLast hlast (by have := hreaches.le; omega)

/-- A loop that is over stays over, and nothing is taken from what lies ahead. -/
theorem pull_again (h : r.At query c) (hpull : r.pull.1 = none ∨ ∃ e, r.pull.1 = some (.error e))
    (calls : List Call) :
    (r.pull.2.after calls).pull = (none, r.pull.2.after calls) := by
  obtain ⟨c₁, hstep, hat₁⟩ := exists_step h .pull
  obtain ⟨c₂, hrun, hat₂⟩ := exists_run hat₁ calls
  have h₂ := hrun.onward.2 (hstep.finished_of_pull hpull)
  rw [← hat₂.finished] at h₂
  exact pull_of_finished h₂

/-- If blanks are kept, calls of `next` go through the stream entry by entry. -/
theorem At.after_next (h : r.At query c) (hkeep : c.skipBlanks = false) (n : Nat) :
    (r.after (List.replicate n .next)).At query { c with place := c.place + n } := by
  induction n generalizing r c with
  | zero => exact h
  | succ n ih =>
    obtain ⟨j, hreaches, -, hat⟩ := h.next
    rw [hkeep] at hreaches
    have hat' := ih hat hkeep
    rw [hreaches.eq_of_keep] at hat'
    rw [show c.place + (n + 1) = c.place + 1 + n by omega]
    exact hat'

end Reader

/-- A reader gives the stream of its text: it is what a new reader gives call by call, it
is made of the tokens of the text, and any calls at all are answered from it. -/
structure ReadsStream (query : String) : Prop where
  fresh : ∀ n, ((Reader.ofQuery query).after (List.replicate n .next)).next.1 = stream query n
  of_tokens : ∀ ts, tokenize query = .ok ts →
    ∀ n, stream query n = .ok (ts.getD n ⟨.ending, query.utf8ByteSize⟩)
  of_fault : ∀ e, tokenize query = .error e →
    ∃ m, (∀ n, n < m → ∃ t, stream query n = .ok t ∧ t.lexeme ≠ .ending) ∧
      ∀ n, m ≤ n → stream query n = .error e
  run : ∀ calls, ∃ c,
    Cursor.Run (stream query) .start calls ((Reader.ofQuery query).replies calls) c
  next_again : ∀ before between, IsLast ((Reader.ofQuery query).after before).next.1 →
    ((Reader.ofQuery query).after (before ++ .next :: between)).next.1 =
      ((Reader.ofQuery query).after before).next.1
  pull_again : ∀ before between,
    ((Reader.ofQuery query).after before).pull.1 = none ∨
      (∃ e, ((Reader.ofQuery query).after before).pull.1 = some (.error e)) →
    ((Reader.ofQuery query).after (before ++ .pull :: between)).pull =
      (none, (Reader.ofQuery query).after (before ++ .pull :: between))

/-- **A reader gives one stream of tokens, whatever way it is driven.**  In any order of
calls the answers are the entries of the stream from left to right, each once, but for
the blanks that are reached while the reader skips them.  After the end of the text or
a fault, `next` gives it again.  A loop ends where the text does and gives a fault once;
after that it gives nothing and takes nothing. -/
theorem reader_reads_stream (query : String) : ReadsStream query := by
  have hstart := Reader.ofQuery_at query
  constructor
  case fresh =>
    intro n
    obtain ⟨j, hreaches, hreply, -⟩ := (hstart.after_next rfl n).next
    rw [hreply, hreaches.eq_of_keep, show Cursor.start.place + n = n from Nat.zero_add n]
  case of_tokens => exact fun ts h n => stream_of_tokenize_ok h n
  case of_fault => exact fun e h => stream_of_tokenize_error h
  case run =>
    intro calls
    obtain ⟨c, hrun, -⟩ := Reader.exists_run hstart calls
    exact ⟨c, hrun⟩
  case next_again =>
    intro before between hlast
    obtain ⟨c, -, hat⟩ := Reader.exists_run hstart before
    rw [Reader.after_append]
    exact Reader.next_again hat hlast between
  case pull_again =>
    intro before between hpull
    obtain ⟨c, -, hat⟩ := Reader.exists_run hstart before
    rw [Reader.after_append]
    exact Reader.pull_again hat hpull between

/-- A blank is skipped and another one kept, and both ways of asking meet the fault. -/
theorem reads_stream_of_two_blanks :
    let query := "a  b !"
    let fault : Except Error Token := .error (.lexical (.notEqual "!") 5 query)
    let calls : List Call := [.next, .skip true, .pull, .skip false, .next, .pull, .pull, .next]
    let replies : List Reply := [.entry (.ok ⟨.word .symbol "a", 0⟩), .none,
      .item (some (.ok ⟨.word .symbol "b", 3⟩)), .none, .entry (.ok ⟨.blank, 4⟩),
      .item (some fault), .item none, .entry fault]
    (Reader.ofQuery query).replies calls = replies ∧
      ∃ c, Cursor.Run (stream query) .start calls replies c := by
  intro query fault calls replies
  have hreplies : (Reader.ofQuery query).replies calls = replies := by decide +kernel
  obtain ⟨c, hrun⟩ := (reader_reads_stream query).run calls
  exact ⟨hreplies, c, hreplies ▸ hrun⟩

end FilterQuery
