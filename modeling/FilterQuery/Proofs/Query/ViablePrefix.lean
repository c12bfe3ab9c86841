/-
A syntax error stands at the first lexeme that cannot go on with the query.

* **`Viable`** — some lexemes are the beginning of a sentence of the grammar;
* **`State.Reads.viable`** — what has been read can always be completed;
* **`State.not_viable_of_step`** — where a token is refused as misplaced, no sentence goes on
  with it;
* **`misplaced_at_first_impossible`** — so the error names the first token that makes the
  query hopeless.

Design notes.  The grammar has no limits on depth and the reader has.  A sentence is
therefore either read or refused as too deep, and a token that is refused for another
reason belongs to no sentence.
-/
import FilterQuery.Proofs.Query.Recognition
import FilterQuery.Proofs.Token.Segmentation

namespace FilterQuery

/-- Some lexemes are the beginning of a sentence. -/
def Viable (ls : List Lexeme) : Prop :=
  ∃ ms e, Derives .group (ls ++ ms) e

/-- The place that an error names for a token that may not stand there. -/
def Error.misplaced? : Error → Option Nat
  | .unexpectedOpening position _ _ => some position
  | .unexpectedClosing position _ => some position
  | .unexpectedToken _ position _ => some position
  | .unexpectedOperand _ position _ => some position
  | .unexpectedConnective _ position _ => some position
  | _ => none

/-! ### What has been read can be completed -/

theorem Phase.Reads.completes {phase : Phase} {ls : List Lexeme} (h : phase.Reads ls) :
    ∃ ms e, Derives .operand (ls ++ ms) e := by
  cases h with
  | due => exact ⟨_, _, .comparison .symbol "a" .eq .symbol "b"⟩
  | column kind name =>
    exact ⟨[.compare .eq, .word .symbol "b"], _, .comparison kind name .eq .symbol "b"⟩
  | operator kind name op => exact ⟨[.word .symbol "b"], _, .comparison kind name op .symbol "b"⟩
  | @filled ls e _ he => exact ⟨[], e, by rwa [List.append_nil]⟩

/-- A group inside others is completed by closing one after the other. -/
theorem EnclosingReads.completes {outer : List Slot} {ks : List Lexeme}
    (h : EnclosingReads outer ks) {ls : List Lexeme} {e : Expr} (he : Derives .group ls e) :
    Viable (ks ++ ls) := by
  induction h generalizing ls e with
  | nil => exact ⟨[], e, by rwa [List.append_nil]⟩
  | cons _ hslot ih =>
    obtain ⟨e', -, hgroup⟩ := hslot.fill (.parens he)
    obtain ⟨ms, e'', hsentence⟩ := ih hgroup
    refine ⟨.closing :: ms, e'', ?_⟩
    simpa using hsentence

theorem Viable.of_append {ls ms : List Lexeme} (h : Viable (ls ++ ms)) : Viable ls := by
  obtain ⟨ns, e, hsentence⟩ := h
  exact ⟨ms ++ ns, e, by rwa [← List.append_assoc]⟩

/-- **What has been read is the beginning of a sentence.** -/
theorem State.Reads.viable {s : State} {ls : List Lexeme} (h : s.Reads ls) : Viable ls := by
  obtain ⟨ho, hs, hp⟩ := h
  obtain ⟨ns, e, hoperand⟩ := hp.completes
  obtain ⟨e', -, hgroup⟩ := hs.fill hoperand
  have hviable := ho.completes hgroup
  rw [← List.append_assoc, ← List.append_assoc] at hviable
  exact hviable.of_append

/-! ### A misplaced token belongs to no sentence -/

/-- No lexeme of a phrase is a blank or the end of the text. -/
theorem Derives.isSignificant {p : Phrase} {ls : List Lexeme} {e : Expr} (h : Derives p ls e) :
    ∀ x ∈ ls, x ≠ .blank ∧ x ≠ .ending := by
  induction h with
  | comparison => simp
  | parens _ ih =>
    intro x hx
    rcases List.mem_cons.mp hx with rfl | hx
    · simp
    · rcases List.mem_append.mp hx with hx | hx
      · exact ih x hx
      · rw [List.mem_singleton.mp hx]
        simp
  | single _ ih => exact ih
  | join op _ _ ihl ihr =>
    intro x hx
    rcases List.mem_append.mp hx with hx | hx
    · exact ihl x hx
    · rcases List.mem_cons.mp hx with rfl | hx
      · simp
      · exact ihr x hx

/-- Tokens before the end of a text, followed by any lexemes of a sentence. -/
theorem Spans.append_map {ts : List Token} {ls ms : List Lexeme} (h : Spans ts ls)
    (hms : ∀ x ∈ ms, x ≠ .blank ∧ x ≠ .ending) :
    Spans (ts ++ ms.map fun x => ⟨x, 0⟩) (ls ++ ms) := by
  obtain ⟨hts, rfl⟩ := h
  constructor
  · intro t ht
    rcases List.mem_append.mp ht with ht | ht
    · exact hts t ht
    · obtain ⟨x, hx, rfl⟩ := List.mem_map.mp ht
      exact (hms x hx).2
  · have hmap : (ms.map fun x => (⟨x, 0⟩ : Token)).map Token.lexeme = ms := by
      rw [List.map_map]
      exact List.map_id ms
    rw [significant_append]
    congr 1
    rw [significant, hmap, List.filter_eq_self]
    intro x hx
    simpa using hms x hx

namespace State

variable {query : String} {s s' : State} {t : Token} {err : Error} {p : Nat}

/-- A run that fails does so at one of its tokens. -/
theorem exists_step_of_run {ts : List Token} (h : s.run query ts = .error err) :
    ∃ before t after s', ts = before ++ t :: after ∧ s.run query before = .ok s' ∧
      s'.step query t = .error err := by
  induction ts generalizing s with
  | nil => cases h
  | cons t ts ih =>
    rw [run] at h
    split at h
    · next s₁ hstep =>
      obtain ⟨before, u, after, s', rfl, hrun, herr⟩ := ih h
      refine ⟨t :: before, u, after, s', rfl, ?_, herr⟩
      rw [run, hstep]
      exact hrun
    · next hstep =>
      cases h
      exact ⟨[], t, ts, s, rfl, rfl, hstep⟩

/-- The place that is named is the place of the token that was refused. -/
theorem offset_of_step (h : s.step query t = .error err) (hp : err.misplaced? = some p) :
    t.offset = p := by
  cases refuses_of_step h <;> cases hp <;> rfl

/-- No blank is refused. -/
theorem ne_blank_of_step (h : s.step query t = .error err) : t.lexeme ≠ .blank := by
  intro hblank
  have hmoves : s.Moves t.lexeme { s with phase := s.phase.afterBlank } := hblank ▸ .blank s
  rw [step_of_moves hmoves] at h
  cases h

/-- **Where a token is refused as misplaced, no sentence goes on with it.** -/
theorem not_viable_of_step {before : List Token} {ls : List Lexeme} (hbefore : Spans before ls)
    (hrun : start.run query before = .ok s) (ht : t.lexeme ≠ .ending)
    (h : s.step query t = .error err) (hp : err.misplaced? = some p) :
    ¬ Viable (ls ++ [t.lexeme]) := by
  rintro ⟨ms, e, hsentence⟩
  -- Read the sentence with this very token at its place.
  have hms : ∀ x ∈ ms, x ≠ .blank ∧ x ≠ .ending := fun x hx =>
    hsentence.isSignificant x (List.mem_append_right _ hx)
  have htoken : Spans (before ++ [t]) (ls ++ [t.lexeme]) := by
    refine ⟨List.forall_mem_append.mpr ⟨hbefore.ne_ending, by simpa using ht⟩, ?_⟩
    rw [significant_append, hbefore.lexemes]
    simp [significant, ne_blank_of_step h, ht]
  have hend := run_of_derives query hsentence (htoken.append_map hms) [] .first fun _ => rfl
  have herror : start.run query (before ++ [t] ++ ms.map fun x => ⟨x, 0⟩) = .error err := by
    rw [List.append_assoc, run_append_ok hrun, List.cons_append, run, h]
  rw [show State.mk [] .first .due = start from rfl, herror] at hend
  rcases hend with ⟨_, _, _, hok, _⟩ | ⟨hdeep, -⟩
  · cases hok
  · cases hdeep
    cases hp

/-- What is missing at the end of a query has no place. -/
theorem misplaced?_of_finish (h : s.finish query = .error err) : err.misplaced? = none := by
  cases lacks_of_finish h <;> rfl

end State

/-- An error with the place of a misplaced token comes from the run over the tokens. -/
theorem run_of_misplaced {query : String} {err : Error} {p : Nat} (h : parse query = .error err)
    (hp : err.misplaced? = some p) :
    State.start.run query (scan query).tokens = .error err := by
  rw [parse] at h
  split at h
  · next hrun =>
    cases h
    exact hrun
  · split at h
    · cases h
      cases hp
    · rw [State.misplaced?_of_finish h] at hp
      cases hp

/-- **A syntax error stands at the first impossible token.**  If a query is refused because a
parenthesis, a comparison, an operand or a connective may not stand at a place, then
exactly one token starts at this place.  The significant lexemes before it are the
beginning of a sentence, and with the token they are the beginning of none. -/
theorem misplaced_at_first_impossible (query : String) (err : Error) (p : Nat)
    (h : parse query = .error err) (hp : err.misplaced? = some p) :
    ∃ before t after, (scan query).tokens = before ++ t :: after ∧ t.offset = p ∧
      (∀ u ∈ before ++ after, u.offset ≠ p) ∧ p < query.utf8ByteSize ∧ t.lexeme ≠ .blank ∧
      Viable (significant before) ∧ ¬ Viable (significant before ++ [t.lexeme]) := by
  obtain ⟨before, t, after, s, htokens, hrun, hstep⟩ :=
    State.exists_step_of_run (run_of_misplaced h hp)
  have hoffset := State.offset_of_step hstep hp
  have hending := @lexeme_ne_ending_of_mem_scanFrom 0 query.toList
  rw [← scan, htokens] at hending
  have hbefore : Spans before (significant before) :=
    ⟨fun u hu => hending u (List.mem_append_left _ hu), rfl⟩
  have ht : t.lexeme ≠ .ending := hending t (by simp)
  have hplaces := pairwise_scan query
  rw [htokens] at hplaces
  obtain ⟨-, hafter, hcross⟩ := List.pairwise_append.mp hplaces
  refine ⟨before, t, after, htokens, hoffset, ?_, ?_, State.ne_blank_of_step hstep, ?_, ?_⟩
  · intro u hu
    rcases List.mem_append.mp hu with hu | hu
    · have := hcross u hu t List.mem_cons_self
      omega
    · have := List.rel_of_pairwise_cons hafter hu
      omega
  · rw [← hoffset]
    exact offset_lt_of_mem_scan t (by simp [htokens])
  · exact (State.reads_of_run hbefore hrun).viable
  · exact State.not_viable_of_step hbefore hrun ht hstep hp

/-- A second operand inside a group, before a text that cannot be cut into tokens. -/
theorem misplaced_second_operand :
    let query := "é=1 or (b>2 c !"
    parse query = .error (.unexpectedOperand "c" 13 query) ∧
      ∃ before t after, (scan query).tokens = before ++ t :: after ∧ t.offset = 13 ∧
        (∀ u ∈ before ++ after, u.offset ≠ 13) ∧ 13 < query.utf8ByteSize ∧ t.lexeme ≠ .blank ∧
        Viable (significant before) ∧ ¬ Viable (significant before ++ [t.lexeme]) := by
  intro query
  have hparse : parse query = .error (.unexpectedOperand "c" 13 query) := by decide +kernel
  exact ⟨hparse, misplaced_at_first_impossible query _ 13 hparse rfl⟩

end FilterQuery
