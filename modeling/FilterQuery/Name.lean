/-
The names of columns and fields.

Two names are taken for the same if they differ only in underscores and in the case of
their letters.

* **`Name.key`** — what is common to all spellings of a name.
-/
import FilterQuery.Text.LowerCase

namespace FilterQuery.Name

/-- The name without underscores, in lower case. -/
def key (name : String) : String :=
  String.ofList ((name.toList.filter (· != '_')).flatMap Text.lower)

end FilterQuery.Name
