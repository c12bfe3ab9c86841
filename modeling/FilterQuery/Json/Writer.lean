/-
Writing a JSON text.

* **`JsonToken.write`** — the characters of a piece;
* **`Json.write`** — the text of a value, without any blank.
-/
import FilterQuery.Json.Text

namespace FilterQuery

/-- The characters of a scalar. -/
def JsonScalar.write : JsonScalar → List Char
  | null => ['n', 'u', 'l', 'l']
  | bool true => ['t', 'r', 'u', 'e']
  | bool false => ['f', 'a', 'l', 's', 'e']
  | number lexeme => lexeme.toList
  | string text => Json.writeString text

/-- The characters of a piece of a JSON text. -/
def JsonToken.write : JsonToken → List Char
  | arrayOpen => ['[']
  | arrayClose => [']']
  | objectOpen => ['\x7b']
  | objectClose => ['\x7d']
  | comma => [',']
  | colon => [':']
  | scalar s => s.write

/-- The text of a value: its pieces with nothing between them. -/
def Json.write (j : Json) : String :=
  String.ofList (j.tokens.flatMap JsonToken.write)

end FilterQuery
