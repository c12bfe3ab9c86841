/-
Catalogues: the fields of a schema that can be queried.

* **`Field`** — a field with its declared name and its type;
* **`Catalog.ofSchema`** — the fields of a schema that have a type and are not left
  out, under the keys of their names.  Of two fields with the same key the later one
  counts;
* **`Field.allows`** — which comparisons the type of a field allows;
* **`Field.read`** — the value that a text denotes for a field.
-/
import FilterQuery.Options.Basic
import FilterQuery.Schema.Basic

namespace FilterQuery

/-- A field that can be queried: its declared name and its type. -/
structure Field where
  column : String
  type : FieldType
deriving DecidableEq

namespace Field

/-- Everything can be equal or not, only text can contain text, and truth values have
no order. -/
def allows (f : Field) : CompareOp → Bool
  | .contains => f.type.isString
  | .eq | .ne => true
  | _ => f.type != .bool

/-- The value that a text denotes for the field; the context is named in the error. -/
def read (f : Field) (raw context : String) : Except Error Value :=
  match f.type.read raw with
  | .ok v => .ok v
  | .error source => .error (.invalidValue raw context source)

end Field

/-- The fields that can be queried, under the keys of their names. -/
structure Catalog where
  fields : Table Field

namespace Catalog

/-- The keys of the fields that are left out. -/
def ignoredKeys (o : Options) : List String :=
  o.settings.ignored.map Name.key

/-- The fields with one more field of a schema, unless it has no type or is left out. -/
def addField (ignored : List String) (fields : Table Field)
    (entry : String × Option FieldType) : Table Field :=
  match entry.2 with
  | none => fields
  | some type =>
    let key := Name.key entry.1
    if ignored.contains key then fields else fields.put key ⟨entry.1, type⟩

/-- The fields of a schema that can be queried. -/
def ofSchema (s : Schema) (o : Options) : Except Error Catalog :=
  if s.isEmpty then .error (.invalidParameter "missing schema")
  else .ok ⟨s.entries.foldl (addField (ignoredKeys o)) .empty⟩

/-- The field that a name stands for, in whatever spelling. -/
def get? (c : Catalog) (name : String) : Option Field :=
  c.fields.get? (Name.key name)

end Catalog

end FilterQuery
