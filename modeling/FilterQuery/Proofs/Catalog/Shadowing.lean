/-
Which field a name finds in a catalogue.

* **`Catalog.fieldsWithKey`** — the fields of a schema that can be queried and have a key,
  in the order of their declaration;
* **`Catalog.get?_ofSchema`** — a name finds the last of those that have its key;
* **`get?_declared_iff`** — so a field is found under its own name exactly when no field
  with the same key is declared after it;
* **`get?_shadowed_memberNumber`** — a schema in which a field is not.

Design notes.  The fields are put into the table one after the other, and the table is
read by the key alone.  All that a proof needs of the loop is in
`get?_foldl_addField`; a second field with the same key takes the place of the first.
-/
import FilterQuery.Catalog

namespace FilterQuery

namespace Catalog

/-- The field of an entry of a schema, unless it has no type or is left out. -/
def field? (ignored : List String) (entry : String × Option FieldType) : Option Field :=
  match entry.2 with
  | none => none
  | some type => if ignored.contains (Name.key entry.1) then none else some ⟨entry.1, type⟩

/-- The fields of some entries that can be queried and have a key, in their order. -/
def fieldsWithKey (ignored : List String) (entries : List (String × Option FieldType))
    (key : String) : List Field :=
  (entries.filterMap (field? ignored)).filter fun f => Name.key f.column = key

theorem field?_eq_some_iff {ignored : List String} {entry : String × Option FieldType} {f : Field} :
    field? ignored entry = some f ↔
      entry = (f.column, some f.type) ∧ Name.key f.column ∉ ignored := by
  obtain ⟨name, type⟩ := entry
  obtain ⟨column, type'⟩ := f
  cases type with
  | none => simp [field?]
  | some type =>
    by_cases h : Name.key name ∈ ignored
    · simp only [field?, List.contains_iff_mem, h, if_true, Prod.mk.injEq]
      constructor
      · intro hnone
        cases hnone
      · rintro ⟨⟨rfl, -⟩, hnot⟩
        exact absurd h hnot
    · simp only [field?, List.contains_iff_mem, h, if_false, Option.some.injEq, Field.mk.injEq,
        Prod.mk.injEq]
      constructor
      · rintro ⟨rfl, rfl⟩
        exact ⟨⟨rfl, rfl⟩, h⟩
      · exact fun hf => hf.1

theorem mem_fieldsWithKey {ignored : List String} {entries : List (String × Option FieldType)}
    {key : String} {f : Field} (hkey : key ∉ ignored) :
    f ∈ fieldsWithKey ignored entries key ↔
      (f.column, some f.type) ∈ entries ∧ Name.key f.column = key := by
  simp only [fieldsWithKey, List.mem_filter, List.mem_filterMap, decide_eq_true_eq,
    field?_eq_some_iff]
  constructor
  · rintro ⟨⟨entry, hentry, rfl, -⟩, hsame⟩
    exact ⟨hentry, hsame⟩
  · rintro ⟨hentry, rfl⟩
    exact ⟨⟨_, hentry, rfl, hkey⟩, rfl⟩

theorem addField_eq (ignored : List String) (fields : Table Field)
    (entry : String × Option FieldType) :
    addField ignored fields entry =
      match field? ignored entry with
      | none => fields
      | some f => fields.put (Name.key f.column) f := by
  obtain ⟨name, type⟩ := entry
  cases type with
  | none => rfl
  | some type =>
    show (if ignored.contains (Name.key name) then fields else _) = _
    by_cases h : ignored.contains (Name.key name) = true
    · simp only [field?, h, if_true]
    · simp only [field?, h]
      rfl

/-- After the loop, a key finds the last field with this key, or what it found before. -/
theorem get?_foldl_addField (ignored : List String) (entries : List (String × Option FieldType))
    (fields : Table Field) (key : String) :
    (entries.foldl (addField ignored) fields).get? key =
      (fieldsWithKey ignored entries key).getLast?.or (fields.get? key) := by
  induction entries generalizing fields with
  | nil => rfl
  | cons entry entries ih =>
    rw [List.foldl_cons, ih, addField_eq]
    cases hf : field? ignored entry with
    | none => rw [fieldsWithKey, fieldsWithKey, List.filterMap_cons_none hf]
    | some f =>
      rw [fieldsWithKey, fieldsWithKey, List.filterMap_cons_some hf]
      dsimp only
      rw [Table.get?_put]
      by_cases hkey : Name.key f.column = key
      · rw [List.filter_cons_of_pos (by simpa using hkey), if_pos hkey.symm, List.getLast?_cons]
        cases List.getLast? _ with
        | none => rfl
        | some g => rfl
      · rw [List.filter_cons_of_neg (by simpa using hkey), if_neg (Ne.symm hkey)]

variable {s : Schema} {o : Options} {c : Catalog}

/-- **A name finds the last field that has its key.** -/
theorem get?_ofSchema (h : ofSchema s o = .ok c) (name : String) :
    c.get? name = (fieldsWithKey (ignoredKeys o) s.entries (Name.key name)).getLast? := by
  rw [ofSchema] at h
  split at h
  · cases h
  · cases h
    show Table.get? _ (Name.key name) = _
    rw [get?_foldl_addField]
    exact Option.or_none

/-- The name of a declared field finds the last field with its key that is declared after
it, or this field. -/
theorem get?_declared (h : ofSchema s o = .ok c) {before after : List (String × Option FieldType)}
    {name : String} {type : FieldType} (hs : s.entries = before ++ (name, some type) :: after)
    (hkey : Name.key name ∉ ignoredKeys o) :
    c.get? name = some
      ((fieldsWithKey (ignoredKeys o) after (Name.key name)).getLast?.getD ⟨name, type⟩) := by
  have hfield : field? (ignoredKeys o) (name, some type) = some ⟨name, type⟩ :=
    field?_eq_some_iff.mpr ⟨rfl, hkey⟩
  rw [get?_ofSchema h, hs, fieldsWithKey, List.filterMap_append,
    List.filterMap_cons_some hfield, List.filter_append, List.filter_cons_of_pos (by simp),
    List.getLast?_append, List.getLast?_cons]
  rfl

end Catalog

/-- A schema declares no name twice. -/
theorem Schema.notMem_after (s : Schema) {before after : List (String × Option FieldType)}
    {name : String} {type : Option FieldType} (hs : s.entries = before ++ (name, type) :: after)
    (type' : Option FieldType) : (name, type') ∉ after := by
  intro hagain
  have hdistinct := s.distinct
  rw [hs, List.map_append, List.map_cons, List.nodup_append] at hdistinct
  exact (List.nodup_cons.mp hdistinct.2.1).1 (List.mem_map.mpr ⟨_, hagain, rfl⟩)

/-- **A field is found under its own name exactly when no field with the same key is
declared after it.**  A field without a type does not count, and a field with the same
key as one that is not left out is not left out either. -/
theorem get?_declared_iff (s : Schema) (o : Options) (c : Catalog)
    (h : Catalog.ofSchema s o = .ok c) (before after : List (String × Option FieldType))
    (name : String) (type : FieldType) (hs : s.entries = before ++ (name, some type) :: after)
    (hkey : Name.key name ∉ Catalog.ignoredKeys o) :
    c.get? name = some ⟨name, type⟩ ↔
      ∀ other type', (other, some type') ∈ after → Name.key other ≠ Name.key name := by
  rw [Catalog.get?_declared h hs hkey, Option.some.injEq]
  constructor
  · intro hlast other type' hother hsame
    have hne : Catalog.fieldsWithKey (Catalog.ignoredKeys o) after (Name.key name) ≠ [] :=
      List.ne_nil_of_mem ((Catalog.mem_fieldsWithKey (f := ⟨other, type'⟩) hkey).mpr
        ⟨hother, hsame⟩)
    -- The last of the later fields would be the field itself, declared twice.
    rw [List.getLast?_eq_some_getLast hne, Option.getD_some] at hlast
    have hagain := ((Catalog.mem_fieldsWithKey hkey).mp (List.getLast_mem hne)).1
    rw [hlast] at hagain
    exact s.notMem_after hs _ hagain
  · intro hnone
    have hnil : Catalog.fieldsWithKey (Catalog.ignoredKeys o) after (Name.key name) = [] := by
      rw [List.eq_nil_iff_forall_not_mem]
      intro f hf
      obtain ⟨hentry, hsame⟩ := (Catalog.mem_fieldsWithKey hkey).mp hf
      exact hnone f.column f.type hentry hsame
    rw [hnil]
    rfl

/-- A whole number and a text, declared under two spellings of one name. -/
def memberSchema : Schema :=
  (Schema.empty.declare "member_number" (some .int)).declare "MemberNumber" (some .string)

/-- The later one of the two is found under its own name. -/
theorem get?_declared_memberNumber :
    ∃ c, Catalog.ofSchema memberSchema .standard = .ok c ∧
      c.get? "MemberNumber" = some ⟨"MemberNumber", .string⟩ := by
  refine ⟨_, rfl, ?_⟩
  refine (get?_declared_iff memberSchema .standard _ rfl [("member_number", some .int)] []
    "MemberNumber" .string rfl List.not_mem_nil).mpr ?_
  intro other type' hother
  cases hother

/-- The earlier one is not: its own name finds the later one, with another type. -/
theorem get?_shadowed_memberNumber :
    ("member_number", some FieldType.int) ∈ memberSchema.entries ∧
      Name.key "member_number" ∉ Catalog.ignoredKeys .standard ∧
      ∃ c, Catalog.ofSchema memberSchema .standard = .ok c ∧
        c.get? "member_number" = some ⟨"MemberNumber", .string⟩ :=
  ⟨by decide, List.not_mem_nil, _, rfl, by decide +kernel⟩

end FilterQuery
