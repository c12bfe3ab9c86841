/-
Reading records and names out of JSON values.

A record is an object with the names of its fields as keys, or an array of its fields
in order.  In an object, fields that the record does not have are passed over, and a
field given twice is refused.

* **`Json.fields?`** — the fields of a record, in order; nothing in the place of a field
  that is not given;
* **`Json.variant?`** — one of a list of names, given as a string or as the only key of
  an object;
* **`Json.members?`** — the members of an object, all keys being texts.
-/
import FilterQuery.Json.Basic

namespace FilterQuery

namespace Json

/-- The members of an object, if all its keys are texts. -/
def members? : Json → Option (List (String × Json))
  | object ms => ms.mapM fun m => m.1.map fun k => (k, m.2)
  | _ => none

/-- The items of an array. -/
def items? : Json → Option (List Json)
  | array xs => some xs
  | _ => none

/-- The text of a string. -/
def text? : Json → Option String
  | scalar (.string s) => s
  | _ => none

/-- The value is `null`. -/
def isNull : Json → Bool
  | scalar .null => true
  | _ => false

/-- The fields of a record given as an object: none may be given twice. -/
def namedFields? (names : List String) (ms : List (String × Json)) :
    Option (List (Option Json)) :=
  names.mapM fun name =>
    match ms.filter (·.1 == name) with
    | [] => some none
    | [m] => some (some m.2)
    | _ => none

/-- The fields of a record given as an array: none too many, and none too few unless
the missing ones are `optional`. -/
def listedFields? (names : List String) (optional : Bool) (xs : List Json) :
    Option (List (Option Json)) :=
  if xs.length = names.length ∨ optional ∧ xs.length < names.length then
    some (xs.map some ++ List.replicate (names.length - xs.length) none)
  else none

/-- The fields of a record, in order. -/
def fields? (names : List String) (optional : Bool) : Json → Option (List (Option Json))
  | array xs => listedFields? names optional xs
  | j => j.members?.bind (namedFields? names)

/-- What a name stands for: the name as a string or, if there is room for an object, as
the only key of an object whose value is `null`. -/
def variant? {α : Type} (ofName? : String → Option α) (room : Bool) : Json → Option α
  | scalar (.string (some s)) => ofName? s
  | object [(some s, x)] => if room && x.isNull then ofName? s else none
  | _ => none

end Json

end FilterQuery
