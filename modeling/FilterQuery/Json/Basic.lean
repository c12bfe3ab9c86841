/-
JSON values.

* **`Json`** — a value: a scalar, an array or an object;
* **`JsonToken`** — the pieces that a JSON text is made of;
* **`Json.tokens`** — the pieces of a value, in order.

Design notes.  A number keeps the characters it was written with; what it counts for
depends on where it stands.  A string that holds half of a surrogate pair has no
text, but it is well-formed and may stand where nobody reads it.  The members of an
object keep their order and may repeat a key.
-/
namespace FilterQuery

/-- The text of a JSON string, if it has one. -/
abbrev JsonText := Option String

/-- A JSON value without parts. -/
inductive JsonScalar
  | null
  | bool (b : Bool)
  | number (lexeme : String)
  | string (text : JsonText)

/-- A JSON value. -/
inductive Json
  | scalar (s : JsonScalar)
  | array (items : List Json)
  | object (members : List (JsonText × Json))

/-- A piece of a JSON text. -/
inductive JsonToken
  | arrayOpen
  | arrayClose
  | objectOpen
  | objectClose
  | comma
  | colon
  | scalar (s : JsonScalar)

namespace Json

/-- The JSON string of a text. -/
def text (s : String) : Json :=
  scalar (.string (some s))

/-- The JSON value `null`. -/
def null : Json :=
  scalar .null

/-- The JSON object with the given members. -/
def record (members : List (String × Json)) : Json :=
  object (members.map fun m => (some m.1, m.2))

mutual

/-- The pieces of a value. -/
def tokens : Json → List JsonToken
  | scalar s => [.scalar s]
  | array [] => [.arrayOpen, .arrayClose]
  | array (x :: xs) => .arrayOpen :: (x.tokens ++ itemTokens xs)
  | object [] => [.objectOpen, .objectClose]
  | object ((k, x) :: ms) =>
    .objectOpen :: .scalar (.string k) :: .colon :: (x.tokens ++ memberTokens ms)

/-- The pieces of the items after the first, and the end of the array. -/
def itemTokens : List Json → List JsonToken
  | [] => [.arrayClose]
  | x :: xs => .comma :: (x.tokens ++ itemTokens xs)

/-- The pieces of the members after the first, and the end of the object. -/
def memberTokens : List (JsonText × Json) → List JsonToken
  | [] => [.objectClose]
  | (k, x) :: ms => .comma :: .scalar (.string k) :: .colon :: (x.tokens ++ memberTokens ms)

end

end Json

end FilterQuery
