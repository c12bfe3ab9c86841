/-
What options find under a key.

* **`Table.Indexes`** — a table has exactly the entries of a list, under the keys of their
  names;
* **`Table.indexes_of_foldlM`** — a loop that puts one entry after the other, and stops at
  a key that is there already, makes such a table;
* **`Draft.build_indexes`** — so the tables of options that were built have exactly the
  entries of their draft.

Design notes.  Nothing is said about the order of the entries, because nothing that is
looked up depends on it.
-/
import FilterQuery.Options.Basic

namespace FilterQuery

variable {α β : Type}

theorem bind_eq_ok_iff {x : Except Error α} {f : α → Except Error β} {b : β} :
    x >>= f = .ok b ↔ ∃ a, x = .ok a ∧ f a = .ok b := by
  cases x with
  | error err => simp [bind, Except.bind]
  | ok a => simp [bind, Except.bind]

namespace Table

/-- The table has exactly the entries of the list, under the keys of their names. -/
def Indexes (t : Table α) (es : List (String × α)) : Prop :=
  ∀ key a, t.get? key = some a ↔ ∃ e ∈ es, Name.key e.1 = key ∧ e.2 = a

theorem get?_empty (key : String) : (empty : Table α).get? key = none :=
  rfl

theorem get?_eq_none_of_contains {t : Table α} {key : String} (h : ¬ t.contains key = true) :
    t.get? key = none := by
  rw [contains, Option.not_isSome_iff_eq_none] at h
  exact h

theorem sorted_perm (t : Table α) : t.sorted.Perm t.entries :=
  List.mergeSort_perm t.entries _

/-- After a loop that puts every entry under a new key, a key finds what it found before or
what an entry puts there. -/
theorem get?_of_foldlM {step : Table α → String × α → Except Error (Table α)}
    (hstep : ∀ {t e t'}, step t e = .ok t' →
      t.get? (Name.key e.1) = none ∧ t' = t.put (Name.key e.1) e.2)
    {es : List (String × α)} {t t' : Table α} (h : es.foldlM step t = .ok t') (key : String)
    (a : α) :
    t'.get? key = some a ↔ t.get? key = some a ∨ ∃ e ∈ es, Name.key e.1 = key ∧ e.2 = a := by
  induction es generalizing t with
  | nil =>
    cases h
    simp
  | cons e es ih =>
    rw [List.foldlM_cons, bind_eq_ok_iff] at h
    obtain ⟨t₁, ht, h⟩ := h
    obtain ⟨hnone, rfl⟩ := hstep ht
    rw [ih h, get?_put]
    by_cases hkey : key = Name.key e.1
    · -- The key is new, so it finds the value of this entry and of no other before it.
      subst hkey
      simp [hnone]
    · have hne : ¬ Name.key e.1 = key := fun heq => hkey heq.symm
      simp [hkey, hne]

theorem indexes_of_foldlM {step : Table α → String × α → Except Error (Table α)}
    (hstep : ∀ {t e t'}, step t e = .ok t' →
      t.get? (Name.key e.1) = none ∧ t' = t.put (Name.key e.1) e.2)
    {es : List (String × α)} {t : Table α} (h : es.foldlM step .empty = .ok t) :
    t.Indexes es := by
  intro key a
  rw [get?_of_foldlM hstep h, get?_empty]
  simp

theorem Indexes.perm {t : Table α} {es es' : List (String × α)} (h : t.Indexes es)
    (hp : es.Perm es') : t.Indexes es' := by
  intro key a
  rw [h key a]
  simp only [hp.mem_iff]

end Table

theorem indexColumn_eq_ok {t t' : Table String} {e : String × String}
    (h : indexColumn t e = .ok t') :
    t.get? (Name.key e.1) = none ∧ t' = t.put (Name.key e.1) e.2 := by
  rw [indexColumn] at h
  split at h
  · cases h
  · next hnew =>
    cases h
    exact ⟨Table.get?_eq_none_of_contains hnew, rfl⟩

theorem indexConverter_eq_ok {t t' : Table Converter} {e : String × Converter}
    (h : indexConverter t e = .ok t') :
    t.get? (Name.key e.1) = none ∧ t' = t.put (Name.key e.1) e.2 := by
  rw [indexConverter] at h
  split at h
  · cases h
  · split at h
    · cases h
    · next hnew =>
      cases h
      exact ⟨Table.get?_eq_none_of_contains hnew, rfl⟩

theorem indexes_of_indexColumns {m t : Table String} (h : indexColumns m = .ok t) :
    t.Indexes m.entries :=
  (Table.indexes_of_foldlM indexColumn_eq_ok h).perm m.sorted_perm

/-- Options with the settings of a draft, whose tables have exactly its entries. -/
structure Options.Indexes (o : Options) (d : Draft) : Prop where
  settings : o.settings = d.settings
  aliases : o.aliases.Indexes d.settings.columnMap.entries
  tableColumns : o.tableColumns.Indexes d.settings.tableColumnMap.entries
  converters : o.converters.Indexes d.converters

/-- **The tables of options that were built have exactly the entries of their draft.** -/
theorem Draft.build_indexes {d : Draft} {o : Options} (h : d.build = .ok o) : o.Indexes d := by
  simp only [build, bind_eq_ok_iff] at h
  obtain ⟨converters, hconverters, aliases, haliases, tableColumns, htable, h⟩ := h
  cases h
  exact ⟨rfl, indexes_of_indexColumns haliases, indexes_of_indexColumns htable,
    Table.indexes_of_foldlM indexConverter_eq_ok hconverters⟩

end FilterQuery
