/-
Settings: the choices that can be written down in a configuration.

* **`Settings`** — the style of placeholders, other names for columns, the columns that
  fields are compiled to, and the fields that are left out.
-/
import FilterQuery.Clause.Basic
import FilterQuery.Table

namespace FilterQuery

/-- The choices that can be written down. -/
structure Settings where
  placeholder : Placeholder
  /-- Other names for columns, with the names they stand for. -/
  columnMap : Table String
  /-- Fields with the columns that they are compiled to. -/
  tableColumnMap : Table String
  /-- Fields that are left out. -/
  ignored : List String

namespace Settings

/-- Question marks, and nothing else. -/
def standard : Settings :=
  ⟨.sequential, .empty, .empty, []⟩

/-- The settings with one more field left out; none is listed twice. -/
def ignore (s : Settings) (field : String) : Settings :=
  if s.ignored.contains field then s else { s with ignored := s.ignored ++ [field] }

/-- The settings with more fields left out. -/
def ignoreAll (s : Settings) (fields : List String) : Settings :=
  fields.foldl ignore s

end Settings

end FilterQuery
