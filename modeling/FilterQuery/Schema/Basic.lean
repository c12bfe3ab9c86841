/-
Schemas: the fields that a query may speak of.

* **`Schema`** — field names with their types, in the order of declaration.  A field
  may be declared without a type; it can then not be queried;
* **`Schema.declare`** — a schema with one more field;
* **`Schema.typeOf?`** — the type of a field.
-/
import FilterQuery.FieldType
import FilterQuery.Table

namespace FilterQuery

/-- The fields of a schema and their types. -/
abbrev Schema := Table (Option FieldType)

namespace Schema

/-- The schema without fields. -/
def empty : Schema :=
  Table.empty

/-- The schema with one more field.  A field declared before keeps its place and has
the new type. -/
def declare (s : Schema) (name : String) (type : Option FieldType) : Schema :=
  s.put name type

/-- The type of the field with exactly this name. -/
def typeOf? (s : Schema) (name : String) : Option FieldType :=
  (s.get? name).join

end Schema

end FilterQuery
