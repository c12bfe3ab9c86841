/-
Texts cut into lexemes.

* **`Cuts`** — some lexemes are cut off a text one after the other, and a text is left;
* **`scanFrom_of_cuts`** — if nothing is left, these are the lexemes of the tokens of the
  text;
* **`tokenize_eq_ok_iff`** — tokens are found up to the end of the text exactly when the
  scan meets no fault;
* **`spans_of_tokenize`** — the tokens of the scan are these tokens but the last, which is
  the end of the text.

Design notes.  The relation says nothing about places in the text.  What is cut off
depends on the characters alone, so the places can be put in afterwards.
-/
import FilterQuery.Proofs.Query.Grammar
import FilterQuery.Token.Scan

namespace FilterQuery

/-- Some lexemes are cut off a text one after the other, and a text is left. -/
inductive Cuts : List Char → List Lexeme → List Char → Prop
  | nil (cs : List Char) : Cuts cs [] cs
  | cons {c : Char} {cs rest : List Char} {k : Cut} {ls : List Lexeme} :
      cut c cs = .ok k → Cuts k.rest ls rest → Cuts (c :: cs) (k.lexeme :: ls) rest

theorem Cuts.append {cs ds es : List Char} {ls ms : List Lexeme} (h : Cuts cs ls ds)
    (h' : Cuts ds ms es) : Cuts cs (ls ++ ms) es := by
  induction h with
  | nil => exact h'
  | cons hcut _ ih => exact .cons hcut (ih h')

theorem Cuts.single {c : Char} {cs rest : List Char} {k : Cut} (h : cut c cs = .ok k)
    (hrest : k.rest = rest) : Cuts (c :: cs) [k.lexeme] rest :=
  hrest ▸ .cons h (.nil _)

/-! ### The end of the text -/

/-- A word without delimiters is a connective, or it keeps its text. -/
theorem Lexeme.ofWord_cases {w : List Char} {x : Lexeme} (h : Lexeme.ofWord w = .ok x) :
    (∃ op, x = .connect op) ∨ x = .word .symbol (String.ofList w) ∨
      x = .word .number (String.ofList w) := by
  rw [Lexeme.ofWord] at h
  split at h
  · split at h <;> cases h
    simp
  · split at h
    · cases h; simp
    · split at h <;> cases h <;> simp

theorem Lexeme.ofWord_ne_ending {w : List Char} {x : Lexeme} (h : Lexeme.ofWord w = .ok x) :
    x ≠ .ending := by
  rcases Lexeme.ofWord_cases h with ⟨op, rfl⟩ | rfl | rfl <;> simp

theorem cut_lexeme_ne_ending {c : Char} {cs : List Char} {k : Cut} (h : cut c cs = .ok k) :
    k.lexeme ≠ .ending := by
  rw [cut.eq_def] at h
  -- The cases are the characters that a lexeme begins with, in the order of the cut.
  split at h
  · cases h; simp
  · cases h; simp
  · cases h; simp
  · cases h; simp
  · cases h; rw [cutCompare.eq_def]; split <;> simp
  · cases h; rw [cutCompare.eq_def]; split <;> simp
  · rw [cutNotEqual.eq_def] at h
    split at h <;> cases h
    simp
  · split at h
    · cases h; simp [cutBlank]
    · split at h
      · rw [cutQuoted] at h
        split at h <;> cases h
        simp
      · rw [cutWord] at h
        split at h <;> cases h
        next hw => exact Lexeme.ofWord_ne_ending hw

theorem lexeme_ne_ending_of_mem_scanFrom {offset : Nat} {text : List Char} :
    ∀ t ∈ (scanFrom offset text).tokens, t.lexeme ≠ .ending := by
  fun_induction scanFrom offset text with
  | case1 => exact nofun
  | case2 offset c cs k hcut ih =>
    intro t ht
    rcases List.mem_cons.mp ht with rfl | ht
    · exact cut_lexeme_ne_ending hcut
    · exact ih t ht
  | case3 => exact nofun

/-! ### Tokens of a text -/

theorem tokenize_eq_ok_iff {query : String} {ts : List Token} :
    tokenize query = .ok ts ↔
      (scan query).failure = none ∧
        ts = (scan query).tokens ++ [⟨.ending, query.utf8ByteSize⟩] := by
  rw [tokenize]
  cases hf : (scan query).failure with
  | none => simp [eq_comm]
  | some f => simp

theorem spans_of_tokenize {query : String} {ts : List Token} (h : tokenize query = .ok ts) :
    Spans (scan query).tokens (significant ts) := by
  obtain ⟨-, rfl⟩ := tokenize_eq_ok_iff.mp h
  refine ⟨lexeme_ne_ending_of_mem_scanFrom, ?_⟩
  rw [significant_append]
  simp [significant]

theorem scanFrom_of_cuts {text : List Char} {ls : List Lexeme} (h : Cuts text ls [])
    (offset : Nat) :
    (scanFrom offset text).failure = none ∧
      (scanFrom offset text).tokens.map Token.lexeme = ls := by
  generalize hrest : ([] : List Char) = rest at h
  induction h generalizing offset with
  | nil =>
    subst hrest
    simp [scanFrom]
  | @cons c cs rest k ls hcut _ ih =>
    obtain ⟨hf, hts⟩ := ih (offset + k.size) hrest
    rw [scanFrom]
    split
    · next k' hk =>
      cases hcut.symm.trans hk
      exact ⟨hf, congrArg (k.lexeme :: ·) hts⟩
    · next hk => cases hcut.symm.trans hk

/-- **A text that is cut up completely has tokens**, with the lexemes that are cut off. -/
theorem tokenize_of_cuts {query : String} {ls : List Lexeme} (h : Cuts query.toList ls []) :
    ∃ ts, tokenize query = .ok ts ∧ significant ts = ls.filter (· ≠ .blank) := by
  obtain ⟨hf, hls⟩ := scanFrom_of_cuts h 0
  refine ⟨_, tokenize_eq_ok_iff.mpr ⟨hf, rfl⟩, ?_⟩
  rw [significant_append, significant, significant, scan, hls]
  -- No lexeme that is cut off is the end of the text, so only blanks are left out.
  have hending : ∀ x ∈ ls, x ≠ .ending := by
    intro x hx
    rw [← hls] at hx
    obtain ⟨t, ht, rfl⟩ := List.mem_map.mp hx
    exact lexeme_ne_ending_of_mem_scanFrom t ht
  rw [List.filter_congr fun x hx => by
    show decide (x ≠ .blank ∧ x ≠ .ending) = decide (x ≠ .blank)
    simp [hending x hx]]
  simp

end FilterQuery
