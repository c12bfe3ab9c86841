/-
Field types, and how the text of a query is read as a value.

* **`FieldType`** — the types that a field may be declared with;
* **`FieldType.read`** — the value that a text denotes for a field of the type;
* **`DataError`** — what may be wrong with a piece of data.

Design notes.  Whether a field may be null decides nothing here, because a query has
no way to write a null.  The two types are told apart so that a schema keeps what it
was given.
-/
import FilterQuery.Binary64.Reader
import FilterQuery.Calendar.Reader
import FilterQuery.Text.Quoted
import FilterQuery.Value

namespace FilterQuery

/-- The type of a field. -/
inductive FieldType
  | string
  | nullableString
  | int
  | float
  | bool
  | time
  | nullableTime
deriving DecidableEq

/-- What may be wrong with a piece of data. -/
inductive DataError
  /-- A text is no value of the type. -/
  | mismatch (type : FieldType) (actual : String)
  /-- The data breaks a rule. -/
  | validation (detail : String)
  /-- The data has not the form that was expected. -/
  | serialization (detail : String)
deriving DecidableEq

namespace FieldType

/-- All types, in the order of their declaration. -/
def all : List FieldType :=
  [string, nullableString, int, float, bool, time, nullableTime]

/-- The name of a type in schemas and messages. -/
def name : FieldType → String
  | string => "string"
  | nullableString => "nullable_string"
  | int => "int"
  | float => "float"
  | bool => "bool"
  | time => "time"
  | nullableTime => "nullable_time"

/-- The type with a given name. -/
def ofName? (s : String) : Option FieldType :=
  all.find? (·.name == s)

/-- Fields of the type hold text. -/
def isString : FieldType → Bool
  | string | nullableString => true
  | _ => false

/-- Fields of the type hold dates. -/
def isTime : FieldType → Bool
  | time | nullableTime => true
  | _ => false

/-- What a text should have been, for a field of the type. -/
def expectation : FieldType → String
  | time | nullableTime => "date (YYYY-MM-DD)"
  | type => type.name

/-- The texts `true` and `false`, in any case. -/
def readBool? (s : String) : Option Bool :=
  let folded := s.toList.map Char.toLower
  if folded = ['t', 'r', 'u', 'e'] then some true
  else if folded = ['f', 'a', 'l', 's', 'e'] then some false
  else none

/-- A date of exactly ten bytes. -/
def readDate? (s : String) : Option Date :=
  if s.utf8ByteSize = 10 then Date.read? s.toList else none

/-- The value that a text denotes, if it denotes one. -/
def read? : FieldType → String → Option Value
  | string, s | nullableString, s => some (.text s)
  | int, s => (Numeral.int64? s).map .int
  | float, s => (Binary64.read? s).map .float
  | bool, s => (readBool? s).map .bool
  | time, s | nullableTime, s => (readDate? s).map .date

/-- The value that a text denotes for a field of the type. -/
def read (type : FieldType) (s : String) : Except DataError Value :=
  match type.read? s with
  | some v => .ok v
  | none => .error (.mismatch type s)

theorem read_eq_ok_iff {type : FieldType} {s : String} {v : Value} :
    type.read s = .ok v ↔ type.read? s = some v := by
  rw [read]
  split
  · next h => simp [h]
  · next h => simp [h]

end FieldType

/-- The message of a data error. -/
def DataError.message : DataError → String
  | mismatch type actual =>
    "Type mismatch: expected " ++ type.expectation ++ ", got " ++ Text.quote actual
  | validation detail => "Validation error: " ++ detail
  | serialization detail => "Serialization error: " ++ detail

end FilterQuery
