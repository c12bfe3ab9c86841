/-
The description of options on one line.

* **`Options.describe?`** — the settings and the keys of the converters.  Column maps
  and left-out fields have no order of their own, so they are described only as long
  as none of them has two entries.
-/
import FilterQuery.Options.Basic

namespace FilterQuery

/-- Texts with commas between them. -/
def commaList (parts : List String) : String :=
  String.intercalate ", " parts

/-- Texts between braces. -/
def braced (parts : List String) : String :=
  "\x7b" ++ commaList parts ++ "\x7d"

/-- A column map between braces. -/
def describeMap (m : Table String) : String :=
  braced (m.entries.map fun e => Text.quote e.1 ++ ": " ++ Text.quote e.2)

/-- The name of a style of placeholders in a description. -/
def Placeholder.describe : Placeholder → String
  | sequential => "Sequential"
  | numbered => "Numbered"

/-- The settings on one line. -/
def Settings.describe (s : Settings) : String :=
  "QueryConfig \x7b placeholder: " ++ s.placeholder.describe ++
    ", column_map: " ++ describeMap s.columnMap ++
    ", table_column_map: " ++ describeMap s.tableColumnMap ++
    ", ignored_fields: " ++ braced (s.ignored.map Text.quote) ++ " \x7d"

/-- The options on one line, if that does not depend on an order. -/
def Options.describe? (o : Options) : Option String :=
  let s := o.settings
  if s.columnMap.size ≤ 1 ∧ s.tableColumnMap.size ≤ 1 ∧ s.ignored.length ≤ 1 then
    some ("Options \x7b config: " ++ s.describe ++ ", converters: [" ++
      commaList (o.converters.keys.map Text.quote) ++ "] \x7d")
  else none

end FilterQuery
