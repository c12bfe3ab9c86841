/-
To leave a field out is not to declare it.

* **`Schema.visible`** — a schema without the fields that cannot be queried;
* **`Catalog.ofSchema_visible`** — it has the same catalogue, with nothing left out any more;
* **`Catalog.get?_eq_some`** — what a name finds is a field with a type that is not left out;
* **`compileQuery_visible`** — so every query has the same outcome for both, and reaches
  no field but these.

Design notes.  The fields that are left out matter in one place only, where the catalogue
is made.  All that is asked later of the options (other names, other columns, converters,
the style of placeholders) does not depend on them.
-/
import FilterQuery.Proofs.Catalog.Shadowing
import FilterQuery.Proofs.Clause.Composition
import Mathlib.Data.List.Induction

namespace FilterQuery

/-- The options with no field left out. -/
def Options.unrestricted (o : Options) : Options :=
  { o with settings := { o.settings with ignored := [] } }

/-- The fields of a schema that have a type and are not left out. -/
def Schema.visible (s : Schema) (o : Options) : Schema :=
  s.filter fun name type => type.isSome && !(Catalog.ignoredKeys o).contains (Name.key name)

theorem Schema.entries_visible (s : Schema) (o : Options) :
    (s.visible o).entries = s.entries.filter fun entry =>
      entry.2.isSome && !(Catalog.ignoredKeys o).contains (Name.key entry.1) :=
  rfl

namespace Catalog

/-- A field that cannot be queried is passed over, any other is taken as if none was left
out. -/
theorem addField_eq_ite (ignored : List String) (fields : Table Field)
    (entry : String × Option FieldType) :
    addField ignored fields entry =
      if (entry.2.isSome && !ignored.contains (Name.key entry.1)) = true then
        addField [] fields entry
      else fields := by
  obtain ⟨name, type⟩ := entry
  cases type with
  | none => rfl
  | some type =>
    show (if ignored.contains (Name.key name) then fields else _) = _
    cases h : ignored.contains (Name.key name) with
    | true => rfl
    | false => rfl

variable {s : Schema} {o : Options} {c : Catalog}

/-- **Without the fields that cannot be queried, a schema has the same catalogue.** -/
theorem ofSchema_visible (h : (s.visible o).isEmpty = false) :
    ofSchema (s.visible o) o.unrestricted = ofSchema s o := by
  have hs : s.isEmpty = false := by
    rw [Table.isEmpty, List.isEmpty_eq_false_iff] at h ⊢
    intro hnil
    exact h (by rw [Schema.entries_visible, hnil, List.filter_nil])
  have hstep : addField (ignoredKeys o) = fun fields entry =>
      if (entry.2.isSome && !(ignoredKeys o).contains (Name.key entry.1)) = true then
        addField [] fields entry
      else fields :=
    funext fun fields => funext (addField_eq_ite (ignoredKeys o) fields)
  rw [ofSchema, ofSchema, h, hs, hstep, Schema.entries_visible, List.foldl_filter]
  rfl

/-- What a name finds is declared with a type, is not left out, and has the key of the
name. -/
theorem get?_eq_some (h : ofSchema s o = .ok c) {name : String} {f : Field}
    (hf : c.get? name = some f) :
    (f.column, some f.type) ∈ s.entries ∧ Name.key f.column ∉ ignoredKeys o ∧
      Name.key f.column = Name.key name := by
  rw [get?_ofSchema h] at hf
  have hmem := List.mem_of_getLast? hf
  rw [fieldsWithKey, List.mem_filter, List.mem_filterMap] at hmem
  obtain ⟨⟨entry, hentry, hfield⟩, hkey⟩ := hmem
  obtain ⟨rfl, hnot⟩ := field?_eq_some_iff.mp hfield
  exact ⟨hentry, hnot, of_decide_eq_true hkey⟩

end Catalog

variable {catalog : Catalog} {o : Options}

namespace Comparison

theorem resolve_eq_ok_iff {c : Comparison} {f : Field} :
    c.resolve catalog o = .ok f ↔ catalog.get? ((o.alias? c.column).getD c.column) = some f := by
  rw [resolve]
  cases catalog.get? ((o.alias? c.column).getD c.column) with
  | none => simp
  | some g => simp

/-- A comparison that has a clause speaks of a field. -/
theorem exists_resolve_of_compile {c : Comparison} {bound : Nat} {k : Clause}
    (h : c.compile catalog o bound = .ok k) : ∃ f, c.resolve catalog o = .ok f := by
  rw [compile] at h
  split at h
  · cases h
  · cases hf : c.resolve catalog o with
    | error e =>
      rw [hf] at h
      cases h
    | ok f => exact ⟨f, rfl⟩

end Comparison

theorem Expr.compileAt_unrestricted (level bound : Nat) (e : Expr) :
    compileAt catalog o.unrestricted level bound e = compileAt catalog o level bound e := by
  induction e generalizing level bound with
  | comparison c => rfl
  | logical l op r ihl ihr =>
    rw [compileAt, compileAt, ihl]
    simp only [ihr]

theorem compileQuery_eq_ok_iff {query : String} {s : Schema} {k : Clause} :
    compileQuery query s o = .ok k ↔
      query ≠ "" ∧ ∃ catalog e, Catalog.ofSchema s o = .ok catalog ∧ parse query = .ok e ∧
        e.compile catalog o = .ok k := by
  rw [compileQuery]
  by_cases hquery : query = ""
  · simp [hquery]
  · rw [if_neg hquery]
    cases Catalog.ofSchema s o with
    | error x => simp
    | ok catalog => cases parse query <;> simp [hquery]

/-- **To leave a field out is not to declare it.**  A schema without the fields that have
no type or are left out gives every query the same clause or the same error, with nothing
left out any more.  In a query that has a clause, whatever other names, columns and
converters there are, every comparison speaks of a field that has a type and is not left
out, and whose key is the key of the name that is asked for. -/
theorem compileQuery_visible (query : String) (s : Schema) (o : Options) :
    ((s.visible o).isEmpty = false →
      compileQuery query s o = compileQuery query (s.visible o) o.unrestricted) ∧
    (∀ k, compileQuery query s o = .ok k →
      ∃ catalog e, Catalog.ofSchema s o = .ok catalog ∧ parse query = .ok e ∧
        ∀ c ∈ e.leaves, ∃ f, c.resolve catalog o = .ok f ∧
          (f.column, some f.type) ∈ s.entries ∧ Name.key f.column ∉ Catalog.ignoredKeys o ∧
          Name.key f.column = Name.key ((o.alias? c.column).getD c.column)) := by
  constructor
  · intro h
    rw [compileQuery, compileQuery, Catalog.ofSchema_visible h]
    simp only [Expr.compile, Expr.compileAt_unrestricted]
  · intro k hk
    obtain ⟨-, catalog, e, hcatalog, hparse, hcompile⟩ := compileQuery_eq_ok_iff.mp hk
    refine ⟨catalog, e, hcatalog, hparse, fun c hc => ?_⟩
    obtain ⟨bound, k', hc'⟩ := Expr.exists_compile_of_compileAt hcompile c hc
    obtain ⟨f, hf⟩ := Comparison.exists_resolve_of_compile hc'
    exact ⟨f, hf, Catalog.get?_eq_some hcatalog (Comparison.resolve_eq_ok_iff.mp hf)⟩

/-- A name, a secret, and a note without a type. -/
def vaultSchema : Schema :=
  ((Schema.empty.declare "name" (some .string)).declare "secret" (some .string)).declare "note" none

/-- The secret is left out, but has another name, a column of its own and a converter. -/
def vaultOptions : Options where
  settings := { Settings.standard with ignored := ["SEC_RET"] }
  aliases := (Table.empty.put "nick" "name").put "pw" "Secret"
  tableColumns := Table.empty.put "secret" "vault.secret"
  converters := Table.empty.put "secret" fun column _ _ => .ok ⟨column ++ " is not null", []⟩

/-- The name is found by another name, and the secret is not found by any, as if it was not
declared. -/
theorem compileQuery_vault :
    (vaultSchema.visible vaultOptions).isEmpty = false ∧
    compileQuery "pw=x" (vaultSchema.visible vaultOptions) vaultOptions.unrestricted =
      .error (.unknownColumn "Secret") ∧
    ∃ catalog e, Catalog.ofSchema vaultSchema vaultOptions = .ok catalog ∧
      parse "nick=x" = .ok e ∧
      ∀ c ∈ e.leaves, ∃ f, c.resolve catalog vaultOptions = .ok f ∧
        (f.column, some f.type) ∈ vaultSchema.entries ∧
        Name.key f.column ∉ Catalog.ignoredKeys vaultOptions ∧
        Name.key f.column = Name.key ((vaultOptions.alias? c.column).getD c.column) := by
  have hvisible : (vaultSchema.visible vaultOptions).isEmpty = false := by decide +kernel
  have hhidden : compileQuery "pw=x" vaultSchema vaultOptions =
      .error (.unknownColumn "Secret") := by decide +kernel
  have hfound : compileQuery "nick=x" vaultSchema vaultOptions =
      .ok ⟨"name=?", [.text "x"]⟩ := by decide +kernel
  refine ⟨hvisible, ?_, ?_⟩
  · rw [← (compileQuery_visible "pw=x" vaultSchema vaultOptions).1 hvisible]
    exact hhidden
  · exact (compileQuery_visible "nick=x" vaultSchema vaultOptions).2 _ hfound

end FilterQuery
