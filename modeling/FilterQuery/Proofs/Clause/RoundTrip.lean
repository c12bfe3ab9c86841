/-
What becomes of a clause on its way through JSON.

Values carry no mark of their kind in JSON, and a date is a string there.  A text that
writes a date is therefore taken for this date when it is read back.

* **`Value.reread`** — what becomes of a value: it stays as it is, unless it is a text that
  writes a date;
* **`Clause.read?_write`** — a clause without floating-point numbers reads back with its
  condition and with what becomes of its arguments;
* **`Comparison.BindsDateText`** — a comparison whose argument does not stay as it is;
* **`compileQuery_reread`** — so the clause of a query reads back as it was exactly if
  none of its arguments is such a text, that is, if no comparison binds one.

Design notes.  Nothing here is said of floating-point numbers, whose digits may count for
a number beside the one they were written from.
-/
import FilterQuery.Clause.Json
import FilterQuery.Proofs.Calendar.RoundTrip
import FilterQuery.Proofs.Catalog.Visibility
import FilterQuery.Proofs.Clause.Arguments
import FilterQuery.Proofs.Json.Number

namespace FilterQuery

/-! ### Values -/

namespace Value

/-- What becomes of a value: a text that writes a date becomes this date. -/
def reread : Value → Value
  | text s => ((Date.readLoose? s.toList).map date).getD (text s)
  | v => v

theorem reread_eq_self_iff {v : Value} :
    v.reread = v ↔ ∀ s, v = text s → Date.readLoose? s.toList = none := by
  cases v with
  | text s => cases h : Date.readLoose? s.toList <;> simp [reread, h]
  | _ => simp [reread]

theorem legible_toJson {v : Value} (h : ∀ x, v ≠ float x) :
    v.toJson.Each JsonScalar.Legible := by
  cases v with
  | bool b => exact .scalar (JsonScalar.legible_bool b)
  | int n => exact .scalar (JsonScalar.legible_ofInt n.toInt)
  | float x => exact absurd rfl (h x)
  | date d => exact .scalar (JsonScalar.legible_string _)
  | text s => exact .scalar (JsonScalar.legible_string _)

theorem ofText_eq_reread (s : String) : ofText s = reread (text s) := by
  rw [ofText, reread]
  cases Date.readLoose? s.toList <;> rfl

theorem ofText_write (d : Date) : ofText (String.ofList d.write) = date d := by
  rw [ofText, String.toList_ofList, Date.readLoose?_write]

theorem ofNumber_toInt (n : Int64) : ofNumber (.int n.toInt) = int n := by
  rw [ofNumber, if_pos ⟨n.le_toInt, n.toInt_lt⟩, Int64.ofInt_toInt]

/-- **What becomes of a value in JSON**, unless it is a floating-point number. -/
theorem ofJson?_toJson {v : Value} (h : ∀ x, v ≠ float x) : ofJson? v.toJson = some v.reread := by
  cases v with
  | bool b => rfl
  | int n =>
    rw [toJson, ofJson?, JsonNumber.read?_ofInt n.le_toInt n.toInt_lt, Option.map_some,
      ofNumber_toInt]
    rfl
  | float x => exact absurd rfl (h x)
  | date d =>
    show some (ofText _) = _
    rw [ofText_write]
    rfl
  | text s =>
    show some (ofText s) = _
    rw [ofText_eq_reread]

theorem mapM_ofJson?_toJson {vs : List Value} (h : ∀ x, float x ∉ vs) :
    (vs.map toJson).mapM ofJson? = some (vs.map reread) := by
  induction vs with
  | nil => rfl
  | cons v vs ih =>
    have hv : ∀ x, v ≠ float x := fun x hx => h x (hx ▸ List.mem_cons_self)
    have hvs : ∀ x, float x ∉ vs := fun x hx => h x (List.mem_cons_of_mem v hx)
    rw [List.map_cons, List.mapM_cons, ofJson?_toJson hv, ih hvs]
    rfl

end Value

/-! ### Clauses -/

namespace Clause

theorem legible_toJson {k : Clause} (h : ∀ x, Value.float x ∉ k.args) :
    k.toJson.Each JsonScalar.Legible := by
  have hargs : ∀ j ∈ k.args.map Value.toJson, j.Each JsonScalar.Legible := by
    intro j hj
    obtain ⟨v, hv, rfl⟩ := List.mem_map.mp hj
    exact Value.legible_toJson fun x hx => h x (hx ▸ hv)
  refine .object (List.forall_mem_cons.mpr ⟨?_, List.forall_mem_cons.mpr ⟨?_, nofun⟩⟩)
  · exact .scalar (JsonScalar.legible_string _)
  · exact .array hargs

/-- **A clause reads back with its condition and with what becomes of its arguments.** -/
theorem read?_write {k : Clause} (h : ∀ x, Value.float x ∉ k.args) :
    read? k.write = some ⟨k.condition, k.args.map Value.reread⟩ := by
  rw [read?, write, Json.read?_write (legible_toJson h), Option.bind_some]
  show ((k.args.map Value.toJson).mapM Value.ofJson?).bind _ = _
  rw [Value.mapM_ofJson?_toJson h]
  rfl

theorem read?_write_eq_self_iff {k : Clause} (h : ∀ x, Value.float x ∉ k.args) :
    read? k.write = some k ↔ ∀ v ∈ k.args, v.reread = v := by
  have hmap : k.args.map Value.reread = k.args ↔ ∀ v ∈ k.args, v.reread = v := by
    rw [← List.map_inj_left, List.map_id']
  rw [read?_write h, ← hmap, Option.some_inj]
  constructor
  · intro hk
    exact congrArg Clause.args hk
  · intro hargs
    rw [hargs]

end Clause

/-! ### Queries -/

/-- The argument of the comparison is its text as it stands, and this text writes a date. -/
def Comparison.BindsDateText (c : Comparison) (catalog : Catalog) (o : Options) : Prop :=
  ∃ f raw d, c.resolve catalog o = .ok f ∧ f.type.isString = true ∧ c.op ≠ .contains ∧
    c.value = some raw ∧ Date.readLoose? raw.toList = some d

/-- No date starts with a percent sign. -/
theorem Date.readLoose?_percent (cs : List Char) : readLoose? ('%' :: cs) = none := by
  rw [readLoose?, readWith?, Calendar.skipWhite_cons (by decide)]
  rfl

variable {catalog : Catalog} {o : Options}

/-- The argument of a comparison stays as it is, unless it is a text that writes a date. -/
theorem Comparison.Binds.reread_eq_self_iff {c : Comparison} {f : Field} {v : Value}
    (h : c.Binds catalog o f v) : v.reread = v ↔ ¬ c.BindsDateText catalog o := by
  obtain ⟨hf, hop, raw, w, hvalue, hread, rfl⟩ := h
  by_cases hcontains : c.op = .contains
  · -- What is looked for stands between percent signs.
    rw [hcontains] at hop ⊢
    cases (FieldType.read_of_isString hop raw).symm.trans hread
    rw [Field.argument_contains, Value.reread_eq_self_iff]
    constructor
    · intro _ hdate
      obtain ⟨-, -, -, -, -, hne, -⟩ := hdate
      exact hne hcontains
    · intro _ s hs
      cases hs
      rw [String.toList_append, String.toList_append]
      exact Date.readLoose?_percent _
  · rw [Field.argument_of_ne hcontains, Value.reread_eq_self_iff]
    constructor
    · intro hnone hdate
      obtain ⟨f', raw', d, hf', hstring, -, hvalue', hd⟩ := hdate
      cases hf.symm.trans hf'
      cases hvalue.symm.trans hvalue'
      cases (FieldType.read_of_isString hstring raw).symm.trans hread
      rw [hnone raw rfl] at hd
      cases hd
    · intro hnot s hs
      subst hs
      obtain ⟨hstring, rfl⟩ := FieldType.isString_of_read_eq_text hread
      by_contra hsome
      obtain ⟨d, hd⟩ := Option.ne_none_iff_exists'.mp hsome
      exact hnot ⟨f, raw, d, hf, hstring, hcontains, hvalue, hd⟩

/-- **The clause of a query reads back, but for texts that write a date.**  Its condition
and all other arguments stay as they are; such a text comes back as the date that it
writes.  So the clause is the same again exactly if it has no such argument.  Where no
converter has a say, this means that no comparison with a field that holds text, other
than one for what is contained, gives a text that writes a date. -/
theorem compileQuery_reread (query : String) (s : Schema) (o : Options) (k : Clause)
    (h : compileQuery query s o = .ok k) (hfloat : ∀ x, Value.float x ∉ k.args) :
    Clause.read? k.write = some ⟨k.condition, k.args.map Value.reread⟩ ∧
    (Clause.read? k.write = some k ↔
      ∀ t, Value.text t ∈ k.args → Date.readLoose? t.toList = none) ∧
    ∃ catalog e, Catalog.ofSchema s o = .ok catalog ∧ parse query = .ok e ∧
      ((∀ c ∈ e.leaves, c.Unconverted catalog o) →
        (Clause.read? k.write = some k ↔ ∀ c ∈ e.leaves, ¬ c.BindsDateText catalog o)) := by
  have hself := Clause.read?_write_eq_self_iff hfloat
  refine ⟨Clause.read?_write hfloat, ?_, ?_⟩
  · rw [hself]
    constructor
    · intro hargs t ht
      exact Value.reread_eq_self_iff.mp (hargs _ ht) t rfl
    · intro htexts v hv
      exact Value.reread_eq_self_iff.mpr fun t ht => htexts t (ht ▸ hv)
  · obtain ⟨-, catalog, e, hcatalog, hparse, hcompile⟩ := compileQuery_eq_ok_iff.mp h
    refine ⟨catalog, e, hcatalog, hparse, fun hconv => ?_⟩
    rw [hself]
    exact Expr.forall_mem_args_iff hconv hcompile fun c f v hbinds => hbinds.reread_eq_self_iff

/-- The second of January 2023. -/
def secondDay : Date :=
  ⟨2023, 1, 2, by decide⟩

/-- Persons with a name, an age and a day of birth. -/
def personSchema : Schema :=
  ((Schema.empty.declare "name" (some .string)).declare "age" (some .int)).declare "born"
    (some .time)

/-- Of four arguments, three of them made of the text of one day, only the plain text is
changed. -/
theorem compileQuery_reread_person :
    let query := "name=\"2023-01-02\" and age>7 and born<2023-01-02 or Na_me%2023-01-02"
    ∃ k, compileQuery query personSchema .standard = .ok k ∧ (∀ x, Value.float x ∉ k.args) ∧
      k.args = [.text "2023-01-02", .int 7, .date secondDay, .text "%2023-01-02%"] ∧
      Clause.read? k.write = some ⟨k.condition,
        [.date secondDay, .int 7, .date secondDay, .text "%2023-01-02%"]⟩ ∧
      ∃ catalog e, Catalog.ofSchema personSchema .standard = .ok catalog ∧ parse query = .ok e ∧
        ∃ c ∈ e.leaves, c.BindsDateText catalog .standard := by
  intro query
  have hk : compileQuery query personSchema .standard =
      .ok ⟨"(((name=? and age>?) and born::date<?) or name like ?)",
        [.text "2023-01-02", .int 7, .date secondDay, .text "%2023-01-02%"]⟩ := by
    decide +kernel
  have hfloat : ∀ x, Value.float x ∉
      [.text "2023-01-02", .int 7, .date secondDay, .text "%2023-01-02%"] := by simp
  obtain ⟨hread, -, catalog, e, hcatalog, hparse, hleaves⟩ :=
    compileQuery_reread query personSchema .standard _ hk hfloat
  have hconv : ∀ c ∈ e.leaves, c.Unconverted catalog .standard := fun _ _ _ _ => rfl
  refine ⟨_, hk, hfloat, rfl, ?_, catalog, e, hcatalog, hparse, ?_⟩
  · rw [hread]
    decide +kernel
  · by_contra hnone
    have hsame := (hleaves hconv).mpr fun c hc hdate => hnone ⟨c, hc, hdate⟩
    rw [hread] at hsame
    revert hsame
    decide +kernel

/-- A text that writes a date does not survive, and cannot: the clause of another query, with
the date itself for an argument, is written in the same way. -/
theorem compileQuery_text_reread_as_date :
    (∃ k, compileQuery "name=\"2023-01-02\"" personSchema .standard = .ok k ∧
      (∀ x, Value.float x ∉ k.args) ∧ Clause.read? k.write ≠ some k) ∧
    ∃ s k k', compileQuery "born=2023-01-02" personSchema .standard = .ok k ∧
      compileQuery "born::date=2023-01-02" s .standard = .ok k' ∧
      k.write = k'.write ∧ k ≠ k' := by
  constructor
  · have hk : compileQuery "name=\"2023-01-02\"" personSchema .standard =
        .ok ⟨"name=?", [.text "2023-01-02"]⟩ := by decide +kernel
    have hfloat : ∀ x, Value.float x ∉ [.text "2023-01-02"] := by simp
    refine ⟨_, hk, hfloat, ?_⟩
    rw [Clause.read?_write hfloat]
    decide +kernel
  · refine ⟨Schema.empty.declare "born::date" (some .string),
      ⟨"born::date=?", [.date secondDay]⟩, ⟨"born::date=?", [.text "2023-01-02"]⟩, ?_, ?_, ?_, ?_⟩
    all_goals decide +kernel

end FilterQuery
