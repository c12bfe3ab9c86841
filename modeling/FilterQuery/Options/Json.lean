/-
Settings in JSON.

* **`Settings.read`** — the settings of a JSON text; what is not given is as in the
  standard settings.
-/
import FilterQuery.Json.Decode
import FilterQuery.Json.Reader
import FilterQuery.Options.Settings

namespace FilterQuery

namespace Placeholder

/-- The name of a style of placeholders in a configuration. -/
def name : Placeholder → String
  | sequential => "sequential"
  | numbered => "numbered"

/-- The style of placeholders with a name. -/
def ofName? (s : String) : Option Placeholder :=
  [sequential, numbered].find? (·.name == s)

end Placeholder

namespace Settings

/-- A column map in JSON. -/
def mapOfJson? (j : Json) : Option (Table String) := do
  let members ← j.members?
  let entries ← members.mapM fun m => m.2.text?.map fun s => (m.1, s)
  return Table.ofList entries

/-- A list of names in JSON. -/
def namesOfJson? (j : Json) : Option (List String) :=
  j.items?.bind fun xs => xs.mapM Json.text?

/-- A field that may be left out. -/
def orElse {α : Type} (read? : Json → Option α) (fallback : α) : Option Json → Option α
  | none => some fallback
  | some j => read? j

/-- The settings that a JSON value stands for. -/
def ofJson? (j : Json) : Option Settings :=
  match j.fields? ["placeholder", "column_map", "table_column_map", "ignored_fields"] true with
  | some [placeholder, columnMap, tableColumnMap, ignored] => do
    let placeholder ← orElse (Json.variant? Placeholder.ofName? true) .sequential placeholder
    let columnMap ← orElse mapOfJson? .empty columnMap
    let tableColumnMap ← orElse mapOfJson? .empty tableColumnMap
    let ignored ← orElse namesOfJson? [] ignored
    return ignoreAll ⟨placeholder, columnMap, tableColumnMap, []⟩ ignored
  | _ => none

/-- The settings of a JSON text. -/
def read (text : String) : Except DataError Settings :=
  match (Json.read? text).bind ofJson? with
  | some s => .ok s
  | none => .error (.serialization "Invalid query config")

end Settings

end FilterQuery
