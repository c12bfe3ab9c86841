/-
Reading tokens one at a time.

A reader stands at a place of a text and gives the next token on demand.  At the end
of the text it gives the end again and again, and after a fault that fault.

* **`Reader.next`** — the next token; blanks are passed over while the reader is told
  to skip them;
* **`Reader.pull`** — the next token for a loop: nothing at the end of the text, and
  nothing more after that or after a fault.
-/
import FilterQuery.Token.Scan

namespace FilterQuery

/-- A place in a text from which tokens are read. -/
structure Reader where
  query : String
  /-- The byte offset of the place. -/
  offset : Nat
  /-- What follows the place. -/
  rest : List Char
  /-- The fault that was met, if one was. -/
  failure : Option Failure
  /-- Blanks are passed over. -/
  skipBlanks : Bool
  /-- A loop over the tokens has come to its end. -/
  finished : Bool

namespace Reader

/-- The reader at the start of a text. -/
def ofQuery (query : String) : Reader where
  query := query
  offset := 0
  rest := query.toList
  failure := none
  skipBlanks := false
  finished := false

/-- The next token. -/
def next (r : Reader) : Except Error Token × Reader :=
  match r.failure with
  | some f => (.error (f.error r.query), r)
  | none =>
    match _hr : r.rest with
    | [] => (.ok ⟨.ending, r.offset⟩, r)
    | c :: cs =>
      match _h : cut c cs with
      | .error fault =>
        let f : Failure := ⟨fault, fault.position r.offset (c :: cs)⟩
        (.error (f.error r.query), { r with failure := some f })
      | .ok k =>
        let r' := { r with offset := r.offset + k.size, rest := k.rest }
        if r.skipBlanks ∧ k.lexeme = .blank then r'.next else (.ok ⟨k.lexeme, r.offset⟩, r')
termination_by r.rest.length
decreasing_by
  rw [_hr]
  exact Nat.lt_succ_of_le (cut_rest_le _h)

/-- The next token for a loop over all of them. -/
def pull (r : Reader) : Option (Except Error Token) × Reader :=
  if r.finished then (none, r)
  else
    match r.next with
    | (.ok t, r') =>
      if t.lexeme = .ending then (none, { r' with finished := true }) else (some (.ok t), r')
    | (.error e, r') => (some (.error e), { r' with finished := true })

end Reader

end FilterQuery
