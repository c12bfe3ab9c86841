/-
Schemas in JSON.

* **`Schema.toJson`** — the names of the fields with the names of their types, `null`
  for a field without a type;
* **`Schema.read`** — the schema of a JSON text, none of whose fields may have a blank
  name.
-/
import FilterQuery.Json.Decode
import FilterQuery.Json.Reader
import FilterQuery.Json.Writer
import FilterQuery.Schema.Basic
import FilterQuery.Text.Whitespace

namespace FilterQuery

namespace Schema

/-- A schema as a JSON object. -/
def toJson (s : Schema) : Json :=
  .record (s.entries.map fun e => (e.1, (e.2.map fun type => Json.text type.name).getD .null))

/-- The type of a field in JSON. -/
def typeOfJson? (j : Json) : Option (Option FieldType) :=
  if j.isNull then some none else (j.variant? FieldType.ofName? true).map some

/-- The schema that a JSON value stands for. -/
def ofJson? (j : Json) : Option Schema := do
  let members ← j.members?
  let fields ← members.mapM fun m => (typeOfJson? m.2).map fun type => (m.1, type)
  return Table.ofList fields

/-- The schema of a JSON text. -/
def read (text : String) : Except DataError Schema :=
  match (Json.read? text).bind ofJson? with
  | none => .error (.serialization "Invalid schema")
  | some s =>
    match s.keys.find? Text.isBlank with
    | some name =>
      .error (.validation ("Schema field name must not be empty: " ++ Text.quote name))
    | none => .ok s

/-- The JSON text of a schema. -/
def write (s : Schema) : String :=
  s.toJson.write

end Schema

end FilterQuery
