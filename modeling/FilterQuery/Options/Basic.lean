/-
Options: settings and converters, ready for use.

* **`Draft`** — settings and converters as they were given;
* **`Draft.build`** — the options of a draft, if no two of its entries get in each
  other's way;
* **`Options.alias?`**, **`Options.tableColumn?`**, **`Options.converter?`** — what the
  options say on a name, in whatever spelling.

Design notes.  Names are looked up by their keys.  Two converters for one key are
refused in the order of registration.  The entries of a column map have no order of
their own; they are taken in the order of their names, so that it does not matter in
which order they were written down.
-/
import FilterQuery.Name
import FilterQuery.Options.Settings
import FilterQuery.Text.Whitespace

namespace FilterQuery

/-- Settings and converters as they were given, converters in order of registration. -/
structure Draft where
  settings : Settings
  converters : List (String × Converter)

/-- Settings and converters, with tables under the keys of the names. -/
structure Options where
  settings : Settings
  aliases : Table String
  tableColumns : Table String
  converters : Table Converter

/-- The table under keys with one more entry of a column map. -/
def indexColumn (index : Table String) (entry : String × String) : Except Error (Table String) :=
  let key := Name.key entry.1
  if index.contains key then .error (.duplicateMapping key) else .ok (index.put key entry.2)

/-- A column map under the keys of its names, taken in the order of the names. -/
def indexColumns (m : Table String) : Except Error (Table String) :=
  m.sorted.foldlM indexColumn .empty

/-- The table under keys with one more converter. -/
def indexConverter (index : Table Converter) (entry : String × Converter) :
    Except Error (Table Converter) :=
  let key := Name.key entry.1
  if Text.isBlank entry.1 then .error (.invalidParameter "missing field name")
  else if index.contains key then .error (.duplicateConverter entry.1)
  else .ok (index.put key entry.2)

namespace Draft

/-- The draft without converters and with the standard settings. -/
def empty : Draft :=
  ⟨.standard, []⟩

/-- The draft with one more converter. -/
def register (d : Draft) (field : String) (convert : Converter) : Draft :=
  { d with converters := d.converters ++ [(field, convert)] }

/-- The options of a draft: first its converters, then its column maps are indexed. -/
def build (d : Draft) : Except Error Options := do
  let converters ← d.converters.foldlM indexConverter .empty
  let aliases ← indexColumns d.settings.columnMap
  let tableColumns ← indexColumns d.settings.tableColumnMap
  return ⟨d.settings, aliases, tableColumns, converters⟩

end Draft

namespace Options

/-- The options with the standard settings and without converters. -/
def standard : Options :=
  ⟨.standard, .empty, .empty, .empty⟩

/-- The options of settings without converters. -/
def ofSettings (s : Settings) : Except Error Options :=
  Draft.build ⟨s, []⟩

/-- The name that a name is another name for. -/
def alias? (o : Options) (name : String) : Option String :=
  o.aliases.get? (Name.key name)

/-- The column that a field is compiled to, if it is not the field's own name. -/
def tableColumn? (o : Options) (name : String) : Option String :=
  o.tableColumns.get? (Name.key name)

/-- The converter of a field. -/
def converter? (o : Options) (name : String) : Option Converter :=
  o.converters.get? (Name.key name)

end Options

end FilterQuery
