/-
The arguments of a clause have the types of the schema.

* **`FieldType.Holds`** — the values that a field of a type holds;
* **`FieldType.holds_of_read`** — what a text denotes for a field of a type is one of them;
* **`Comparison.Binds.typed`** — so the argument of a comparison is one of those that its
  field holds, and the field allows the operator;
* **`compile_args_typed`** — in the clause of a tree, argument by argument.

Design notes.  What an argument has to do with its comparison is said by `Comparison.Binds`
in full, and that the arguments come in the order of the comparisons by
`Expr.binds_of_compileAt`.  Nothing here looks into the compiler again, but for the empty
column, which is refused before a field is looked for.
-/
import FilterQuery.Proofs.Catalog.Visibility
import FilterQuery.Proofs.Clause.Arguments

namespace FilterQuery

/-- The values that a field of a type holds.  A whole number has 64 bits by its type. -/
inductive FieldType.Holds : FieldType → Value → Prop
  | string (s : String) : Holds .string (.text s)
  | nullableString (s : String) : Holds .nullableString (.text s)
  | int (n : Int64) : Holds .int (.int n)
  | float {x : Binary64} : x.isFinite = true → Holds .float (.float x)
  | bool (b : Bool) : Holds .bool (.bool b)
  | time (d : Date) : Holds .time (.date d)
  | nullableTime (d : Date) : Holds .nullableTime (.date d)

/-! ### What a text denotes -/

theorem Binary64.isFinite_of_read? {s : String} {x : Binary64} (h : read? s = some x) :
    x.isFinite = true := by
  rw [read?] at h
  split at h
  · dsimp only at h
    split at h
    · next hfinite =>
      cases h
      exact hfinite
    · cases h
  · cases h

namespace FieldType

/-- **What a text denotes for a field is a value that the field holds.** -/
theorem holds_of_read {type : FieldType} {raw : String} {v : Value} (h : type.read raw = .ok v) :
    type.Holds v := by
  rw [read_eq_ok_iff] at h
  cases type with
  | string =>
    cases h
    exact .string raw
  | nullableString =>
    cases h
    exact .nullableString raw
  | int =>
    obtain ⟨n, -, rfl⟩ := Option.map_eq_some_iff.mp h
    exact .int n
  | float =>
    obtain ⟨x, hx, rfl⟩ := Option.map_eq_some_iff.mp h
    exact .float (Binary64.isFinite_of_read? hx)
  | bool =>
    obtain ⟨b, -, rfl⟩ := Option.map_eq_some_iff.mp h
    exact .bool b
  | time =>
    obtain ⟨d, -, rfl⟩ := Option.map_eq_some_iff.mp h
    exact .time d
  | nullableTime =>
    obtain ⟨d, -, rfl⟩ := Option.map_eq_some_iff.mp h
    exact .nullableTime d

/-- A field that holds text holds every text. -/
theorem holds_text {type : FieldType} (h : type.isString = true) (s : String) :
    type.Holds (.text s) :=
  holds_of_read (read_of_isString h s)

end FieldType

/-! ### The argument of a comparison -/

theorem Field.eq_or_ne_of_allows {f : Field} {op : CompareOp} (h : f.allows op = true)
    (htype : f.type = .bool) : op = .eq ∨ op = .ne := by
  cases op with
  | eq => exact .inl rfl
  | ne => exact .inr rfl
  | _ => simp [allows, htype, FieldType.isString] at h

variable {catalog : Catalog} {o : Options} {s : Schema}

/-- The argument fits the comparison: the comparison speaks of a field of the schema that has
a type and is not left out, the field allows its operator, and the argument is a value that
the field holds, namely what the text of the comparison denotes, or the text between percent
signs if it is to be contained. -/
structure Comparison.Typed (c : Comparison) (catalog : Catalog) (s : Schema) (o : Options)
    (f : Field) (raw : String) (v : Value) : Prop where
  resolve : c.resolve catalog o = .ok f
  declared : (f.column, some f.type) ∈ s.entries
  visible : Name.key f.column ∉ Catalog.ignoredKeys o
  named : Name.key f.column = Name.key ((o.alias? c.column).getD c.column)
  value : c.value = some raw
  holds : f.type.Holds v
  contains : c.op = .contains → f.type.isString = true ∧ v = .text ("%" ++ raw ++ "%")
  unordered : f.type = .bool → c.op = .eq ∨ c.op = .ne
  denotes : c.op ≠ .contains → f.type.read raw = .ok v

/-- **What a comparison binds is typed.** -/
theorem Comparison.Binds.typed {c : Comparison} {f : Field} {v : Value}
    (hcatalog : Catalog.ofSchema s o = .ok catalog) (h : c.Binds catalog o f v) :
    ∃ raw, c.Typed catalog s o f raw v := by
  obtain ⟨hf, hop, raw, w, hvalue, hread, hargument⟩ := h
  obtain ⟨hdeclared, hvisible, hnamed⟩ :=
    Catalog.get?_eq_some hcatalog (resolve_eq_ok_iff.mp hf)
  have hcontains : c.op = .contains → f.type.isString = true ∧ v = .text ("%" ++ raw ++ "%") := by
    intro hc
    rw [hc] at hop hargument
    cases (FieldType.read_of_isString hop raw).symm.trans hread
    exact ⟨hop, hargument⟩
  have hdenotes : c.op ≠ .contains → f.type.read raw = .ok v := by
    intro hc
    rw [hargument, Field.argument_of_ne hc]
    exact hread
  refine ⟨raw, hf, hdeclared, hvisible, hnamed, hvalue, ?_, hcontains,
    Field.eq_or_ne_of_allows hop, hdenotes⟩
  by_cases hc : c.op = .contains
  · obtain ⟨hstring, rfl⟩ := hcontains hc
    exact FieldType.holds_text hstring _
  · exact FieldType.holds_of_read (hdenotes hc)

theorem Comparison.column_ne_empty_of_compile {c : Comparison} {bound : Nat} {k : Clause}
    (h : c.compile catalog o bound = .ok k) : c.column ≠ "" := by
  intro hempty
  rw [compile, if_pos hempty] at h
  cases h

/-! ### Trees -/

/-- In a tree that has a clause, without a converter every leaf has a column and a value. -/
theorem Expr.isComplete_of_compileAt {level bound : Nat} {e : Expr} {k : Clause}
    (hconv : ∀ c ∈ e.leaves, c.Unconverted catalog o)
    (h : compileAt catalog o level bound e = .ok k) : e.isComplete = true := by
  rw [isComplete, List.all_eq_true]
  intro c hc
  obtain ⟨bound', k', hk⟩ := exists_compile_of_compileAt h c hc
  obtain ⟨f, v, ⟨-, -, raw, w, hvalue, -⟩, -⟩ := Comparison.binds_of_compile (hconv c hc) hk
  have hcolumn := Comparison.column_ne_empty_of_compile hk
  simp [Comparison.isComplete, hcolumn, hvalue]

/-- **The arguments of a clause have the types of the schema.**  If a tree has a clause, and
there are no converters, then every leaf has a column and a value, there is one argument for
every leaf, and each argument is typed by its own leaf. -/
theorem compile_args_typed (s : Schema) (o : Options) (catalog : Catalog) (e : Expr) (k : Clause)
    (hcatalog : Catalog.ofSchema s o = .ok catalog) (hconv : ∀ name, o.converter? name = none)
    (h : e.compile catalog o = .ok k) :
    e.isComplete = true ∧ k.args.length = e.leaves.length ∧
      ∀ (i : Nat) (c : Comparison) (v : Value), e.leaves[i]? = some c → k.args[i]? = some v →
        ∃ f raw, c.Typed catalog s o f raw v := by
  have hleaves : ∀ c ∈ e.leaves, c.Unconverted catalog o := fun c _ f _ => hconv f.column
  have hbinds := Expr.binds_of_compileAt hleaves h
  refine ⟨Expr.isComplete_of_compileAt hleaves h, hbinds.length_eq.symm, ?_⟩
  intro i c v hc hv
  obtain ⟨hi, rfl⟩ := List.getElem?_eq_some_iff.mp hc
  obtain ⟨hi', rfl⟩ := List.getElem?_eq_some_iff.mp hv
  obtain ⟨f, hf⟩ := hbinds.get hi hi'
  obtain ⟨raw, htyped⟩ := hf.typed hcatalog
  exact ⟨f, raw, htyped⟩

/-- A name, a height, a mark and a secret. -/
def rosterSchema : Schema :=
  (((Schema.empty.declare "name" (some .nullableString)).declare "height" (some .float)).declare
    "active" (some .bool)).declare "secret" (some .string)

/-- The name has another name, and the secret is left out. -/
def rosterOptions : Options :=
  { Options.standard with
    settings := { Settings.standard with ignored := ["SECRET"] }
    aliases := Table.empty.put "nick" "Na_me" }

/-- A part of a name, a truth value and a number with a fraction, each for its own leaf. -/
theorem args_typed_roster :
    let contained : Comparison := ⟨"nick", .contains, some "x"⟩
    let measured : Comparison := ⟨"HEIGHT", .ge, some "1.5"⟩
    let e : Expr := .logical (.comparison contained) .and
      (.logical (.comparison ⟨"active", .ne, some "FALSE"⟩) .or (.comparison measured))
    ∃ catalog k, Catalog.ofSchema rosterSchema rosterOptions = .ok catalog ∧
      e.compile catalog rosterOptions = .ok k ∧
      k.args = [.text "%x%", .bool false, .float ⟨0x3FF8000000000000⟩] ∧
      (e.isComplete = true ∧ k.args.length = e.leaves.length) ∧
      (∃ f raw, contained.Typed catalog rosterSchema rosterOptions f raw
        (.text "%x%")) ∧
      ∃ f raw, measured.Typed catalog rosterSchema rosterOptions f raw
        (.float ⟨0x3FF8000000000000⟩) := by
  intro contained measured e
  have hconv : ∀ name, rosterOptions.converter? name = none := fun _ => rfl
  have hcompile : ∃ catalog, Catalog.ofSchema rosterSchema rosterOptions = .ok catalog ∧
      e.compile catalog rosterOptions = .ok ⟨"(name like ? and (active!=? or height>=?))",
        [.text "%x%", .bool false, .float ⟨0x3FF8000000000000⟩]⟩ := by
    refine ⟨_, rfl, ?_⟩
    decide +kernel
  obtain ⟨catalog, hcatalog, hk⟩ := hcompile
  obtain ⟨hcomplete, hlength, htyped⟩ :=
    compile_args_typed rosterSchema rosterOptions catalog e _ hcatalog hconv hk
  have hleaves : e.leaves = [contained, ⟨"active", .ne, some "FALSE"⟩, measured] := by
    simp [e, Expr.leaves_logical, Expr.leaves_comparison]
  rw [hleaves] at htyped
  exact ⟨catalog, _, hcatalog, hk, rfl, ⟨hcomplete, hlength⟩, htyped 0 _ _ rfl rfl,
    htyped 2 _ _ rfl rfl⟩

end FilterQuery
