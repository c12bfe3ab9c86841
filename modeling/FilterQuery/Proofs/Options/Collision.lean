/-
Which drafts can be built, and what stands in the way of the others.

Options are found by the keys of names, so two names with one key get in each other's way.
Converters are taken in the order of registration.  The entries of a column map come in no
order of their own and are taken in the order of their names.

* **`foldlM_eq_error_iff`** — a loop that fails does so at one entry, after all before it;
* **`Registrable`** — converters that can be registered one after the other, and
  **`Unregistrable`**, the first that cannot;
* **`Table.Injective`** — the names of a column map have different keys, and
  **`Table.FirstClash`**, the least name whose key a lesser one has already;
* **`indexColumns_eq_error_iff`** — a column map is refused for its first clash;
* **`Table.sorted_eq_of_perm`** — the order in which a column map was written down is lost;
* **`Draft.build_eq_error_iff`**, **`draft_build_characterized`** — so a draft is built unless
  there is a fault, and says which.
-/
import FilterQuery.Proofs.Options.Index
import Mathlib.Data.List.Nodup

namespace FilterQuery

variable {α β : Type}

/-! ### Loops that may fail -/

theorem bind_eq_error_iff {x : Except Error α} {f : α → Except Error β} {err : Error} :
    x >>= f = .error err ↔ x = .error err ∨ ∃ a, x = .ok a ∧ f a = .error err := by
  cases x with
  | error err' => simp [bind, Except.bind]
  | ok a => simp [bind, Except.bind]

/-- A loop fails at one of its entries, after it has taken all those before. -/
theorem foldlM_eq_error_iff {step : β → α → Except Error β} {xs : List α} {b : β} {err : Error} :
    xs.foldlM step b = .error err ↔
      ∃ before x after b', xs = before ++ x :: after ∧ before.foldlM step b = .ok b' ∧
        step b' x = .error err := by
  constructor
  · intro h
    induction xs generalizing b with
    | nil => simp [pure, Except.pure] at h
    | cons x xs ih =>
      rw [List.foldlM_cons, bind_eq_error_iff] at h
      obtain hfault | ⟨b₁, hstep, hrest⟩ := h
      · exact ⟨[], x, xs, b, rfl, rfl, hfault⟩
      · obtain ⟨before, y, after, b', rfl, hbefore, hfault⟩ := ih hrest
        refine ⟨x :: before, y, after, b', rfl, ?_, hfault⟩
        rw [List.foldlM_cons, bind_eq_ok_iff]
        exact ⟨b₁, hstep, hbefore⟩
  · rintro ⟨before, x, after, b', rfl, hbefore, hfault⟩
    rw [List.foldlM_append, hbefore]
    show (x :: after).foldlM step b' = _
    rw [List.foldlM_cons, bind_eq_error_iff]
    exact .inl hfault

/-- A loop that puts acceptable entries under new keys comes to its end exactly if all entries
are acceptable and no two have the same key. -/
theorem exists_foldlM_eq_ok_iff (accepts : String → Prop)
    {step : Table α → String × α → Except Error (Table α)}
    (hstep : ∀ {t e t'}, step t e = .ok t' ↔
      accepts e.1 ∧ t.get? (Name.key e.1) = none ∧ t' = t.put (Name.key e.1) e.2)
    {es : List (String × α)} {t : Table α} :
    (∃ t', es.foldlM step t = .ok t') ↔
      (∀ e ∈ es, accepts e.1 ∧ t.get? (Name.key e.1) = none) ∧
        (es.map fun e => Name.key e.1).Nodup := by
  induction es generalizing t with
  | nil => simp [pure, Except.pure]
  | cons e es ih =>
    have hloop : (∃ t', (e :: es).foldlM step t = .ok t') ↔
        (accepts e.1 ∧ t.get? (Name.key e.1) = none) ∧
          ∃ t', es.foldlM step (t.put (Name.key e.1) e.2) = .ok t' := by
      simp only [List.foldlM_cons, bind_eq_ok_iff, hstep]
      constructor
      · rintro ⟨t', t₁, ⟨haccepts, hnone, rfl⟩, hrest⟩
        exact ⟨⟨haccepts, hnone⟩, t', hrest⟩
      · rintro ⟨⟨haccepts, hnone⟩, t', hrest⟩
        exact ⟨t', _, ⟨haccepts, hnone, rfl⟩, hrest⟩
    -- What the first entry puts is what the others may not have as their key.
    have hput : ∀ f : String × α, (t.put (Name.key e.1) e.2).get? (Name.key f.1) = none ↔
        Name.key f.1 ≠ Name.key e.1 ∧ t.get? (Name.key f.1) = none := by
      intro f
      rw [Table.get?_put]
      split
      · next heq => simp [heq]
      · next hne => simp [hne]
    rw [hloop, ih, List.map_cons, List.nodup_cons, List.mem_map, List.forall_mem_cons]
    simp only [hput]
    constructor
    · rintro ⟨he, hes, hnodup⟩
      refine ⟨⟨he, fun f hf => ⟨(hes f hf).1, (hes f hf).2.2⟩⟩, ?_, hnodup⟩
      rintro ⟨f, hf, heq⟩
      exact (hes f hf).2.1 heq
    · rintro ⟨⟨he, hes⟩, hnew, hnodup⟩
      refine ⟨he, fun f hf => ⟨(hes f hf).1, fun heq => hnew ⟨f, hf, heq⟩, (hes f hf).2⟩, hnodup⟩

theorem Table.contains_iff_of_indexes {t : Table α} {es : List (String × α)} (h : t.Indexes es)
    {key : String} : t.contains key = true ↔ ∃ e ∈ es, Name.key e.1 = key := by
  rw [Table.contains, Option.isSome_iff_exists]
  constructor
  · rintro ⟨a, ha⟩
    obtain ⟨e, he, hkey, -⟩ := (h key a).mp ha
    exact ⟨e, he, hkey⟩
  · rintro ⟨e, he, hkey⟩
    exact ⟨e.2, (h key e.2).mpr ⟨e, he, hkey, rfl⟩⟩

theorem Table.contains_eq_false_iff {t : Table α} {key : String} :
    ¬ t.contains key = true ↔ t.get? key = none := by
  rw [Table.contains, Option.not_isSome_iff_eq_none]

/-! ### Converters -/

/-- Converters with names that are not blank and have different keys. -/
def Registrable (converters : List (String × Converter)) : Prop :=
  (∀ e ∈ converters, Text.isBlank e.1 = false) ∧ (converters.map fun e => Name.key e.1).Nodup

instance (converters : List (String × Converter)) : Decidable (Registrable converters) :=
  inferInstanceAs (Decidable (_ ∧ _))

/-- The first converter that cannot be registered, and why: its name is blank, or it is not and
has the key of an earlier one. -/
inductive Unregistrable : List (String × Converter) → Error → Prop
  | blank {before after : List (String × Converter)} {e : String × Converter} :
      Registrable before → Text.isBlank e.1 = true →
        Unregistrable (before ++ e :: after) (.invalidParameter "missing field name")
  | duplicate {before after : List (String × Converter)} {e : String × Converter} :
      Registrable before → Text.isBlank e.1 = false →
        (∃ e' ∈ before, Name.key e'.1 = Name.key e.1) →
          Unregistrable (before ++ e :: after) (.duplicateConverter e.1)

theorem indexConverter_eq_ok_iff {t t' : Table Converter} {e : String × Converter} :
    indexConverter t e = .ok t' ↔ Text.isBlank e.1 = false ∧ t.get? (Name.key e.1) = none ∧
      t' = t.put (Name.key e.1) e.2 := by
  rw [indexConverter]
  split
  · next hblank => simp [hblank]
  · next hblank =>
    split
    · next hold =>
      have hsome : t.get? (Name.key e.1) ≠ none := fun hnone =>
        Table.contains_eq_false_iff.mpr hnone hold
      simp [hsome]
    · next hnew => simp [hblank, Table.contains_eq_false_iff.mp hnew, eq_comm]

theorem indexConverter_eq_error_iff {t : Table Converter} {e : String × Converter} {err : Error} :
    indexConverter t e = .error err ↔
      (Text.isBlank e.1 = true ∧ err = .invalidParameter "missing field name") ∨
        (Text.isBlank e.1 = false ∧ t.contains (Name.key e.1) = true ∧
          err = .duplicateConverter e.1) := by
  rw [indexConverter]
  split
  · next hblank => simp [hblank, @eq_comm _ err]
  · next hblank =>
    split
    · next hold => simp [hblank, hold, @eq_comm _ err]
    · next hnew => simp [hblank, hnew]

theorem exists_indexConverters_iff {es : List (String × Converter)} :
    (∃ t, es.foldlM indexConverter .empty = .ok t) ↔ Registrable es := by
  rw [exists_foldlM_eq_ok_iff (Text.isBlank · = false) indexConverter_eq_ok_iff, Registrable]
  simp only [Table.get?_empty, and_true]

theorem contains_of_indexConverters {es : List (String × Converter)} {t : Table Converter}
    (h : es.foldlM indexConverter .empty = .ok t) {key : String} :
    t.contains key = true ↔ ∃ e ∈ es, Name.key e.1 = key :=
  Table.contains_iff_of_indexes (Table.indexes_of_foldlM indexConverter_eq_ok h)

/-- **Converters are refused for the first one that cannot be registered.** -/
theorem indexConverters_eq_error_iff {es : List (String × Converter)} {err : Error} :
    es.foldlM indexConverter .empty = .error err ↔ Unregistrable es err := by
  rw [foldlM_eq_error_iff]
  constructor
  · rintro ⟨before, e, after, t, rfl, hbefore, hfault⟩
    have hreg := exists_indexConverters_iff.mp ⟨t, hbefore⟩
    obtain ⟨hblank, rfl⟩ | ⟨hblank, hold, rfl⟩ := indexConverter_eq_error_iff.mp hfault
    · exact .blank hreg hblank
    · exact .duplicate hreg hblank ((contains_of_indexConverters hbefore).mp hold)
  · rintro (⟨hreg, hblank⟩ | ⟨hreg, hblank, hold⟩)
    · obtain ⟨t, hbefore⟩ := exists_indexConverters_iff.mpr hreg
      exact ⟨_, _, _, t, rfl, hbefore, indexConverter_eq_error_iff.mpr (.inl ⟨hblank, rfl⟩)⟩
    · obtain ⟨t, hbefore⟩ := exists_indexConverters_iff.mpr hreg
      have hcontains := (contains_of_indexConverters hbefore).mpr hold
      exact ⟨_, _, _, t, rfl, hbefore,
        indexConverter_eq_error_iff.mpr (.inr ⟨hblank, hcontains, rfl⟩)⟩

/-! ### Column maps -/

namespace Table

/-- No two names of the table have the same key. -/
def Injective (m : Table String) : Prop :=
  ∀ name ∈ m.keys, ∀ other ∈ m.keys, Name.key name = Name.key other → name = other

/-- A lesser name of the table has the same key. -/
def Clashes (m : Table String) (name : String) : Prop :=
  ∃ other ∈ m.keys, other < name ∧ Name.key other = Name.key name

/-- The least name of the table that clashes with a lesser one. -/
def FirstClash (m : Table String) (name : String) : Prop :=
  name ∈ m.keys ∧ m.Clashes name ∧ ∀ other ∈ m.keys, m.Clashes other → name ≤ other

variable (m : Table String)

instance : Decidable m.Injective :=
  inferInstanceAs (Decidable (∀ name ∈ m.keys, _))

instance (name : String) : Decidable (m.Clashes name) :=
  inferInstanceAs (Decidable (∃ other ∈ m.keys, _))

instance (name : String) : Decidable (m.FirstClash name) :=
  inferInstanceAs (Decidable (_ ∧ _))

theorem mem_keys_iff {name : String} : name ∈ m.keys ↔ ∃ e ∈ m.sorted, e.1 = name := by
  simp only [keys, List.mem_map, m.sorted_perm.mem_iff]

/-- The entries stand in the order of their names, and no two names are the same. -/
theorem pairwise_sorted : m.sorted.Pairwise fun e f => e.1 < f.1 := by
  have hle : m.sorted.Pairwise fun e f => decide (e.1 ≤ f.1) = true := by
    refine List.pairwise_mergeSort (fun a b c hab hbc => ?_) (fun a b => ?_) m.entries
    · exact decide_eq_true (String.le_trans (of_decide_eq_true hab) (of_decide_eq_true hbc))
    · simpa using String.le_total a.1 b.1
  have hne : m.sorted.Pairwise fun e f => e.1 ≠ f.1 := by
    have hnodup := (m.sorted_perm.map Prod.fst).nodup_iff.mpr m.distinct
    exact List.pairwise_map.mp hnodup
  refine (hle.and hne).imp ?_
  rintro e f ⟨hef, hne⟩
  by_contra hlt
  exact hne (String.le_antisymm (of_decide_eq_true hef) (String.not_lt.mp hlt))

/-- **The order in which a table was written down is lost.** -/
theorem sorted_eq_of_perm {m m' : Table String} (h : m.entries.Perm m'.entries) :
    m.sorted = m'.sorted :=
  List.Perm.eq_of_pairwise (fun _ _ _ _ hef hfe => absurd hfe (String.lt_asymm hef))
    m.pairwise_sorted m'.pairwise_sorted
    (m.sorted_perm.trans (h.trans m'.sorted_perm.symm))

theorem injective_iff_nodup : m.Injective ↔ (m.sorted.map fun e => Name.key e.1).Nodup := by
  have hkeys : (m.sorted.map fun e => Name.key e.1).Nodup ↔ (m.keys.map Name.key).Nodup := by
    rw [(m.sorted_perm.map fun e => Name.key e.1).nodup_iff, keys, List.map_map]
    rfl
  rw [hkeys]
  exact (List.nodup_map_iff_inj_on m.distinct).symm

variable {m}

/-- Up to a place in the order, the names that are less stand before it. -/
theorem clashes_iff_before {before after : List (String × String)} {e : String × String}
    (h : m.sorted = before ++ e :: after) :
    m.Clashes e.1 ↔ ∃ f ∈ before, Name.key f.1 = Name.key e.1 := by
  have hsorted := m.pairwise_sorted
  rw [h, List.pairwise_append, List.pairwise_cons] at hsorted
  obtain ⟨-, ⟨hafter, -⟩, hbefore⟩ := hsorted
  constructor
  · rintro ⟨name, hname, hlt, hkey⟩
    obtain ⟨f, hf, rfl⟩ := m.mem_keys_iff.mp hname
    rw [h, List.mem_append, List.mem_cons] at hf
    rcases hf with hf | rfl | hf
    · exact ⟨f, hf, hkey⟩
    · exact absurd hlt (String.lt_irrefl _)
    · exact absurd hlt (String.lt_asymm (hafter f hf))
  · rintro ⟨f, hf, hkey⟩
    refine ⟨f.1, m.mem_keys_iff.mpr ⟨f, ?_, rfl⟩, ?_, hkey⟩
    · rw [h]
      exact List.mem_append_left _ hf
    · exact hbefore f hf e List.mem_cons_self

/-- The first clash is at the first entry whose key has come before. -/
theorem firstClash_iff {name : String} :
    m.FirstClash name ↔ ∃ before e after, m.sorted = before ++ e :: after ∧ e.1 = name ∧
      (before.map fun f => Name.key f.1).Nodup ∧ ∃ f ∈ before, Name.key f.1 = Name.key e.1 := by
  constructor
  · rintro ⟨hmem, hclash, hleast⟩
    obtain ⟨e, he, rfl⟩ := m.mem_keys_iff.mp hmem
    obtain ⟨before, after, hsplit⟩ := List.append_of_mem he
    refine ⟨before, e, after, hsplit, rfl, ?_, (clashes_iff_before hsplit).mp hclash⟩
    -- Two equal keys before the entry would be an earlier clash.
    have hsorted := m.pairwise_sorted
    rw [hsplit, List.pairwise_append] at hsorted
    obtain ⟨hbefore, -, hcross⟩ := hsorted
    refine List.pairwise_map.mpr (hbefore.imp_of_mem fun {f g} hf hg hlt hkey => ?_)
    have hmem : ∀ x ∈ before, x.1 ∈ m.keys := fun x hx =>
      m.mem_keys_iff.mpr ⟨x, by rw [hsplit]; exact List.mem_append_left _ hx, rfl⟩
    have hle := hleast g.1 (hmem g hg) ⟨f.1, hmem f hf, hlt, hkey⟩
    exact String.not_lt.mpr hle (hcross g hg e List.mem_cons_self)
  · rintro ⟨before, e, after, hsplit, rfl, hnodup, hold⟩
    have hmem : e ∈ m.sorted := by rw [hsplit]; simp
    refine ⟨m.mem_keys_iff.mpr ⟨e, hmem, rfl⟩, (clashes_iff_before hsplit).mpr hold, ?_⟩
    intro other hother hclash
    obtain ⟨g, hg, rfl⟩ := m.mem_keys_iff.mp hother
    have hsorted := m.pairwise_sorted
    rw [hsplit, List.pairwise_append, List.pairwise_cons] at hsorted
    obtain ⟨-, ⟨hafter, -⟩, -⟩ := hsorted
    rw [hsplit, List.mem_append, List.mem_cons] at hg
    rcases hg with hg | rfl | hg
    · -- Before the entry no key comes twice.
      obtain ⟨front, back, rfl⟩ := List.append_of_mem hg
      rw [List.append_assoc, List.cons_append] at hsplit
      obtain ⟨f, hf, hkey⟩ := (clashes_iff_before hsplit).mp hclash
      rw [List.map_append, List.map_cons, List.nodup_append] at hnodup
      exact absurd hkey (hnodup.2.2 _ (List.mem_map.mpr ⟨f, hf, rfl⟩) _ List.mem_cons_self)
    · exact String.le_refl _
    · exact String.not_lt.mp (String.lt_asymm (hafter g hg))

end Table

theorem indexColumn_eq_ok_iff {t t' : Table String} {e : String × String} :
    indexColumn t e = .ok t' ↔
      True ∧ t.get? (Name.key e.1) = none ∧ t' = t.put (Name.key e.1) e.2 := by
  rw [indexColumn]
  split
  · next hold =>
    have hsome : t.get? (Name.key e.1) ≠ none := fun hnone =>
      Table.contains_eq_false_iff.mpr hnone hold
    simp [hsome]
  · next hnew => simp [Table.contains_eq_false_iff.mp hnew, eq_comm]

theorem indexColumn_eq_error_iff {t : Table String} {e : String × String} {err : Error} :
    indexColumn t e = .error err ↔
      t.contains (Name.key e.1) = true ∧ err = .duplicateMapping (Name.key e.1) := by
  rw [indexColumn]
  split
  · next hold => simp [hold, @eq_comm _ err]
  · next hnew => simp [hnew]

theorem exists_foldlM_indexColumn_iff {es : List (String × String)} :
    (∃ t, es.foldlM indexColumn .empty = .ok t) ↔ (es.map fun e => Name.key e.1).Nodup := by
  rw [exists_foldlM_eq_ok_iff (fun _ => True) indexColumn_eq_ok_iff]
  simp [Table.get?_empty]

/-- A column map can be indexed exactly if its names have different keys. -/
theorem exists_indexColumns_iff {m : Table String} :
    (∃ t, indexColumns m = .ok t) ↔ m.Injective := by
  rw [m.injective_iff_nodup]
  exact exists_foldlM_indexColumn_iff

/-- **A column map is refused for its first clash.** -/
theorem indexColumns_eq_error_iff {m : Table String} {err : Error} :
    indexColumns m = .error err ↔
      ∃ name, m.FirstClash name ∧ err = .duplicateMapping (Name.key name) := by
  rw [indexColumns, foldlM_eq_error_iff]
  simp only [Table.firstClash_iff]
  constructor
  · rintro ⟨before, e, after, t, hsplit, hbefore, hfault⟩
    obtain ⟨hold, rfl⟩ := indexColumn_eq_error_iff.mp hfault
    have hindexes := Table.indexes_of_foldlM indexColumn_eq_ok hbefore
    refine ⟨e.1, ⟨before, e, after, hsplit, rfl, ?_, ?_⟩, rfl⟩
    · exact exists_foldlM_indexColumn_iff.mp ⟨t, hbefore⟩
    · exact (Table.contains_iff_of_indexes hindexes).mp hold
  · rintro ⟨name, ⟨before, e, after, hsplit, rfl, hnodup, hold⟩, rfl⟩
    obtain ⟨t, hbefore⟩ := exists_foldlM_indexColumn_iff.mpr hnodup
    have hindexes := Table.indexes_of_foldlM indexColumn_eq_ok hbefore
    refine ⟨before, e, after, t, hsplit, hbefore, indexColumn_eq_error_iff.mpr ⟨?_, rfl⟩⟩
    exact (Table.contains_iff_of_indexes hindexes).mpr hold

theorem indexColumns_eq_of_perm {m m' : Table String} (h : m.entries.Perm m'.entries) :
    indexColumns m = indexColumns m' := by
  rw [indexColumns, indexColumns, Table.sorted_eq_of_perm h]

/-! ### Drafts -/

namespace Draft

/-- What stands in the way of a draft: a converter, or else another name for a column, or else a
column of a field. -/
inductive Refused (d : Draft) : Error → Prop
  | converter {err : Error} : Unregistrable d.converters err → Refused d err
  | alias {name : String} : Registrable d.converters → d.settings.columnMap.FirstClash name →
      Refused d (.duplicateMapping (Name.key name))
  | tableColumn {name : String} : Registrable d.converters → d.settings.columnMap.Injective →
      d.settings.tableColumnMap.FirstClash name → Refused d (.duplicateMapping (Name.key name))

variable {d : Draft} {err : Error}

/-- **A draft is refused for what stands first in its way.** -/
theorem build_eq_error_iff : d.build = .error err ↔ d.Refused err := by
  simp only [build, bind_eq_error_iff, indexConverters_eq_error_iff, indexColumns_eq_error_iff]
  constructor
  · rintro (hconverter | ⟨converters, hconverters, halias | ⟨aliases, haliases, htable⟩⟩)
    · exact .converter hconverter
    · obtain ⟨name, hclash, rfl⟩ := halias
      exact .alias (exists_indexConverters_iff.mp ⟨converters, hconverters⟩) hclash
    · obtain ⟨name, hclash, rfl⟩ | ⟨_, _, hpure⟩ := htable
      · exact .tableColumn (exists_indexConverters_iff.mp ⟨converters, hconverters⟩)
          (exists_indexColumns_iff.mp ⟨aliases, haliases⟩) hclash
      · simp [pure, Except.pure] at hpure
  · rintro (hconverter | ⟨hreg, hclash⟩ | ⟨hreg, hinjective, hclash⟩)
    · exact .inl hconverter
    · obtain ⟨converters, hconverters⟩ := exists_indexConverters_iff.mpr hreg
      exact .inr ⟨converters, hconverters, .inl ⟨_, hclash, rfl⟩⟩
    · obtain ⟨converters, hconverters⟩ := exists_indexConverters_iff.mpr hreg
      obtain ⟨aliases, haliases⟩ := exists_indexColumns_iff.mpr hinjective
      exact .inr ⟨converters, hconverters, .inr ⟨aliases, haliases, .inl ⟨_, hclash, rfl⟩⟩⟩

/-- **A draft can be built exactly if no two names get in each other's way.** -/
theorem exists_build_iff :
    (∃ o, d.build = .ok o) ↔ Registrable d.converters ∧ d.settings.columnMap.Injective ∧
      d.settings.tableColumnMap.Injective := by
  simp only [build, bind_eq_ok_iff]
  constructor
  · rintro ⟨o, converters, hconverters, aliases, haliases, tableColumns, htable, -⟩
    exact ⟨exists_indexConverters_iff.mp ⟨converters, hconverters⟩,
      exists_indexColumns_iff.mp ⟨aliases, haliases⟩,
      exists_indexColumns_iff.mp ⟨tableColumns, htable⟩⟩
  · rintro ⟨hreg, halias, htable⟩
    obtain ⟨converters, hconverters⟩ := exists_indexConverters_iff.mpr hreg
    obtain ⟨aliases, haliases⟩ := exists_indexColumns_iff.mpr halias
    obtain ⟨tableColumns, htable⟩ := exists_indexColumns_iff.mpr htable
    exact ⟨_, converters, hconverters, aliases, haliases, tableColumns, htable, rfl⟩

/-- With converters that can be registered, what may stand in the way is a clash in one of the
column maps. -/
theorem exists_duplicateMapping_iff (hreg : Registrable d.converters) :
    (∃ key, d.build = .error (.duplicateMapping key)) ↔
      ¬ (d.settings.columnMap.Injective ∧ d.settings.tableColumnMap.Injective) := by
  constructor
  · rintro ⟨key, hkey⟩ hinjective
    obtain ⟨o, ho⟩ := exists_build_iff.mpr ⟨hreg, hinjective⟩
    rw [ho] at hkey
    simp at hkey
  · intro hnot
    obtain ⟨err, herr⟩ : ∃ err, d.build = .error err := by
      cases hbuild : d.build with
      | error err => exact ⟨err, rfl⟩
      | ok o => exact absurd (exists_build_iff.mp ⟨o, hbuild⟩).2 hnot
    obtain hconverter | ⟨-, -⟩ | ⟨-, -, -⟩ := build_eq_error_iff.mp herr
    · -- The converters would not have been registered.
      obtain ⟨converters, hconverters⟩ := exists_indexConverters_iff.mpr hreg
      rw [indexConverters_eq_error_iff.mpr hconverter] at hconverters
      simp at hconverters
    · exact ⟨_, herr⟩
    · exact ⟨_, herr⟩

/-- **It does not matter in which order the column maps were written down.** -/
theorem build_eq_of_perm {d' : Draft} (hconverters : d'.converters = d.converters)
    (halias : d'.settings.columnMap.entries.Perm d.settings.columnMap.entries)
    (htable : d'.settings.tableColumnMap.entries.Perm d.settings.tableColumnMap.entries) :
    d'.build = d.build.map fun o => { o with settings := d'.settings } := by
  rw [build, build, hconverters, indexColumns_eq_of_perm halias, indexColumns_eq_of_perm htable]
  cases d.converters.foldlM indexConverter .empty with
  | error err => rfl
  | ok converters =>
    cases indexColumns d.settings.columnMap with
    | error err => rfl
    | ok aliases => cases indexColumns d.settings.tableColumnMap <;> rfl

end Draft

/-- What a table finds for a name, in whatever spelling. -/
theorem Table.Indexes.get?_key {t : Table α} {es : List (String × α)} (h : t.Indexes es)
    (name : String) (a : α) :
    t.get? (Name.key name) = some a ↔
      ∃ other, (other, a) ∈ es ∧ Name.key other = Name.key name := by
  rw [h]
  constructor
  · rintro ⟨⟨other, b⟩, hmem, hkey, rfl⟩
    exact ⟨other, hmem, hkey⟩
  · rintro ⟨other, hmem, hkey⟩
    exact ⟨(other, a), hmem, hkey, rfl⟩

/-- **A draft is built unless two of its names get in each other's way.**  An error is the one
of the first converter with a blank name or with a key that came before; if there is none, that
of the least name of the first column map, or else of the second, that has the key of a lesser
name.  Nothing depends on the order in which the column maps were written down.  What is built
finds for every name, in whatever spelling, exactly what was given for it. -/
theorem draft_build_characterized (d : Draft) :
    (∀ err, d.build = .error err ↔ d.Refused err) ∧
    ((∃ o, d.build = .ok o) ↔ Registrable d.converters ∧ d.settings.columnMap.Injective ∧
      d.settings.tableColumnMap.Injective) ∧
    (Registrable d.converters →
      ((∃ key, d.build = .error (.duplicateMapping key)) ↔
        ¬ (d.settings.columnMap.Injective ∧ d.settings.tableColumnMap.Injective))) ∧
    (∀ d' : Draft, d'.converters = d.converters →
      d'.settings.columnMap.entries.Perm d.settings.columnMap.entries →
      d'.settings.tableColumnMap.entries.Perm d.settings.tableColumnMap.entries →
      d'.build = d.build.map fun o => { o with settings := d'.settings }) ∧
    ∀ o, d.build = .ok o → o.settings = d.settings ∧ ∀ name,
      (∀ target, o.alias? name = some target ↔
        ∃ other, (other, target) ∈ d.settings.columnMap.entries ∧
          Name.key other = Name.key name) ∧
      (∀ target, o.tableColumn? name = some target ↔
        ∃ other, (other, target) ∈ d.settings.tableColumnMap.entries ∧
          Name.key other = Name.key name) ∧
      ∀ convert, o.converter? name = some convert ↔
        ∃ other, (other, convert) ∈ d.converters ∧ Name.key other = Name.key name := by
  refine ⟨fun err => Draft.build_eq_error_iff, Draft.exists_build_iff,
    Draft.exists_duplicateMapping_iff, fun d' => Draft.build_eq_of_perm, fun o ho => ?_⟩
  have hindexes := Draft.build_indexes ho
  refine ⟨hindexes.settings, fun name => ⟨?_, ?_, ?_⟩⟩
  · exact hindexes.aliases.get?_key name
  · exact hindexes.tableColumns.get?_key name
  · exact hindexes.converters.get?_key name

/-- A draft whose column map is written down in two orders, one with two pairs of names that
clash, and one with a blank name after a converter. -/
theorem draft_build_nicknames :
    let convert : Converter := fun column _ _ => .ok ⟨column, []⟩
    let d : Draft := ⟨⟨.numbered, .ofList [("Nick", "name"), ("years", "age")], .empty, []⟩,
      [("Age", convert)]⟩
    let d' : Draft := ⟨⟨.numbered, .ofList [("years", "age"), ("Nick", "name")], .empty, []⟩,
      [("Age", convert)]⟩
    let clashing : Draft := ⟨⟨.sequential,
      .ofList [("z_", "1"), ("a_", "2"), ("A", "3"), ("Z", "4")], .empty, []⟩, []⟩
    let blank : Draft := ⟨clashing.settings, [("Age", convert), (" ", convert), ("AGE", convert)]⟩
    (∃ o, d.build = .ok o ∧ o.alias? "NICK_" = some "name" ∧ o.converter? "a_g_e" = some convert ∧
      d'.build = .ok { o with settings := d'.settings }) ∧
    (Registrable clashing.converters ∧ clashing.build = .error (.duplicateMapping "a") ∧
      ∃ key, clashing.build = .error (.duplicateMapping key)) ∧
    blank.build = .error (.invalidParameter "missing field name") := by
  intro convert d d' clashing blank
  obtain ⟨-, hok, -, hperm, hfinds⟩ := draft_build_characterized d
  obtain ⟨herror, -, hduplicate, -, -⟩ := draft_build_characterized clashing
  obtain ⟨hblank, -, -, -, -⟩ := draft_build_characterized blank
  obtain ⟨o, ho⟩ := hok.mpr (by decide +kernel)
  have hd' : d'.build = .ok { o with settings := d'.settings } := by
    rw [hperm d' rfl (List.Perm.swap _ _ _) (List.Perm.refl _), ho]
    rfl
  obtain ⟨-, hfind⟩ := hfinds o ho
  refine ⟨⟨o, ho, ?_, ?_, hd'⟩, ⟨by decide +kernel, ?_, ?_⟩, ?_⟩
  · exact ((hfind "NICK_").1 "name").mpr ⟨"Nick", List.mem_cons_self, by decide +kernel⟩
  · exact ((hfind "a_g_e").2.2 convert).mpr ⟨"Age", List.mem_cons_self, by decide +kernel⟩
  · have hclash : clashing.settings.columnMap.FirstClash "a_" := by decide +kernel
    have hkey : Name.key "a_" = "a" := by decide +kernel
    exact (herror _).mpr (hkey ▸ .alias (by decide +kernel) hclash)
  · exact (hduplicate (by decide +kernel)).mpr (by decide +kernel)
  · have hfirst : Unregistrable ([("Age", convert)] ++ (" ", convert) :: [("AGE", convert)])
        (.invalidParameter "missing field name") :=
      .blank (by decide +kernel) (by decide +kernel)
    exact (hblank _).mpr (.converter hfirst)

end FilterQuery
