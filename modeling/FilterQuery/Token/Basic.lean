/-
Tokens of the query language.

* **`Lexeme`** — what a token is: a word, an operator, a parenthesis, white space or the
  end of the text;
* **`Token`** — a lexeme with the place where it starts, counted in bytes;
* **`Fault`** — why no token can be cut off at a place.

Design notes.  A lexeme carries its operator, not the operator's spelling, so that
nothing has to be looked up when tokens are put together.  Words keep their text:
a quoted word the text between its delimiters, escapes resolved.
-/
import FilterQuery.Operator
import FilterQuery.Text.Quoted

namespace FilterQuery

/-- The ways to write a word. -/
inductive WordKind
  | symbol
  | number
  | quoted
deriving DecidableEq

/-- What a token is. -/
inductive Lexeme
  | word (kind : WordKind) (text : String)
  | compare (op : CompareOp)
  | connect (op : Connective)
  | opening
  | closing
  | blank
  | ending
deriving DecidableEq

/-- A lexeme and the byte offset at which it starts. -/
structure Token where
  lexeme : Lexeme
  offset : Nat
deriving DecidableEq

/-- Why no token can be cut off. -/
inductive Fault
  /-- An exclamation mark is not followed by an equals sign. -/
  | notEqual (got : String)
  /-- A quoted word does not end. -/
  | unclosed (delimiter : Char)
  /-- The text ends after the backslash of an escape. -/
  | dangling
  /-- A number has more than one point. -/
  | number (literal : String)
deriving DecidableEq

namespace WordKind

/-- The name of a kind of word in messages. -/
def name : WordKind → String
  | symbol => "symbol"
  | number => "number"
  | quoted => "string"

end WordKind

/-- The name of a comparison as a kind of token. -/
def CompareOp.name : CompareOp → String
  | eq => "eq"
  | ne => "ne"
  | gt => "gt"
  | ge => "gte"
  | lt => "lt"
  | le => "lte"
  | contains => "contains"

namespace Lexeme

/-- The name of the kind of a token. -/
def name : Lexeme → String
  | word kind _ => kind.name
  | compare op => op.name
  | connect op => op.word
  | opening => "lparen"
  | closing => "rparen"
  | blank => "whitespace"
  | ending => "eof"

/-- The text of a token; white space and the end of the text have none. -/
def text : Lexeme → String
  | word _ text => text
  | compare op => op.symbol
  | connect op => op.word
  | opening => "("
  | closing => ")"
  | blank => ""
  | ending => ""

/-- The kind of a token and its text. -/
def render (x : Lexeme) : String :=
  x.name ++ ":" ++ Text.quote x.text

end Lexeme

end FilterQuery
