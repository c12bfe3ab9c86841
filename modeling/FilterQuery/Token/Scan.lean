/-
The tokens of a text.

* **`scan`** — the tokens up to the end of the text or to the first place where none
  can be cut off, and the fault at that place;
* **`tokenize`** — the same as a result: all tokens with the end of the text as the
  last one, or the fault.
-/
import FilterQuery.Error
import FilterQuery.Token.Cut

namespace FilterQuery

/-- A fault and the byte offset at which it is reported. -/
structure Failure where
  fault : Fault
  position : Nat
deriving DecidableEq

/-- The error of a failure in a query. -/
def Failure.error (f : Failure) (query : String) : Error :=
  .lexical f.fault f.position query

/-- The tokens of a text before the first fault, and the fault if there is one.  The
end of the text is not among them. -/
structure Scan where
  tokens : List Token
  failure : Option Failure

/-- The same with one more token in front. -/
def Scan.push (t : Token) (s : Scan) : Scan :=
  { s with tokens := t :: s.tokens }

/-- The tokens of the text that starts at a byte offset. -/
def scanFrom (offset : Nat) (text : List Char) : Scan :=
  match text with
  | [] => ⟨[], none⟩
  | c :: cs =>
    match _h : cut c cs with
    | .ok k => (scanFrom (offset + k.size) k.rest).push ⟨k.lexeme, offset⟩
    | .error fault => ⟨[], some ⟨fault, fault.position offset (c :: cs)⟩⟩
termination_by text.length
decreasing_by exact Nat.lt_succ_of_le (cut_rest_le _h)

/-- The tokens of a text before the first fault, and the fault if there is one. -/
def scan (query : String) : Scan :=
  scanFrom 0 query.toList

/-- All tokens of a text, the last one being its end. -/
def tokenize (query : String) : Except Error (List Token) :=
  let s := scan query
  match s.failure with
  | some f => .error (f.error query)
  | none => .ok (s.tokens ++ [⟨.ending, query.utf8ByteSize⟩])

end FilterQuery
