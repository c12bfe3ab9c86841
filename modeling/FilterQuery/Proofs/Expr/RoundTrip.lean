/-
Which trees read back from their JSON.

Every level of a tree takes two objects of its JSON, one for the kind of the node and one
for its fields.  The reader counts them, and refuses what is nested too deeply.

* **`Json.nesting`** — how many arrays and objects are nested in a value;
* **`Expr.nesting_toJson`** — in the JSON of a tree, two for every level;
* **`Expr.ofJson?_toJson`** — within a bound on the nesting, a tree is what its JSON stands
  for, and beyond the bound its JSON stands for nothing;
* **`Expr.read?_write_eq_ite`** — so a tree reads back exactly up to the bound of the
  reader, whatever its texts are;
* **`Expr.read?_write_staircase`** — the bound is met one level after the last tree that
  reads back.

Design notes.  The reader spends its bound two at a time on the way down, the depth of a
tree is counted from its leaves.  The induction is on the tree, for every bound at once.
-/
import FilterQuery.Expr.Json
import FilterQuery.Expr.Walk
import FilterQuery.Proofs.Json.RoundTrip

namespace FilterQuery

/-! ### Nesting -/

namespace Json

mutual

/-- How many arrays and objects are nested in a value, itself included. -/
def nesting : Json → Nat
  | scalar _ => 0
  | array xs => itemNesting xs + 1
  | object ms => memberNesting ms + 1

/-- The deepest nesting among some items. -/
def itemNesting : List Json → Nat
  | [] => 0
  | x :: xs => max x.nesting (itemNesting xs)

/-- The deepest nesting among the values of some members. -/
def memberNesting : List (JsonText × Json) → Nat
  | [] => 0
  | (_, x) :: ms => max x.nesting (memberNesting ms)

end

theorem nesting_text (s : String) : (text s).nesting = 0 := by
  rw [text, nesting]

theorem nesting_record_nil : (record []).nesting = 1 := by
  rw [record, nesting, List.map_nil, memberNesting]

theorem nesting_record_cons (name : String) (x : Json) (ms : List (String × Json)) :
    (record ((name, x) :: ms)).nesting = max (x.nesting + 1) (record ms).nesting := by
  rw [record, record, nesting, nesting, List.map_cons, memberNesting]
  dsimp only
  omega

end Json

/-! ### Comparisons -/

namespace Comparison

variable (c : Comparison)

theorem nesting_toJson : c.toJson.nesting = 1 := by
  have hvalue : ((c.value.map Json.text).getD .null).nesting = 0 := by
    cases c.value with
    | none => rw [Option.map_none, Option.getD_none, Json.null, Json.nesting]
    | some s => rw [Option.map_some, Option.getD_some, Json.nesting_text]
  simp only [toJson, Json.nesting_record_cons, Json.nesting_record_nil, Json.nesting_text, hvalue]
  omega

theorem legible_toJson : c.toJson.Each JsonScalar.Legible := by
  have hvalue : ((c.value.map Json.text).getD .null).Each JsonScalar.Legible := by
    cases c.value with
    | none => exact .scalar JsonScalar.legible_null
    | some s => exact .scalar (JsonScalar.legible_string _)
  refine .object (List.forall_mem_cons.mpr ⟨.scalar (JsonScalar.legible_string _), ?_⟩)
  refine List.forall_mem_cons.mpr ⟨.scalar (JsonScalar.legible_string _), ?_⟩
  exact List.forall_mem_cons.mpr ⟨hvalue, nofun⟩

theorem valueOfJson?_text_or_null (value : Option String) :
    valueOfJson? (some ((value.map Json.text).getD .null)) = some value := by
  cases value with
  | none => rfl
  | some s => rfl

/-- A comparison reads back with or without room for more, because its operator is written
as a string. -/
theorem ofJson?_toJson (nesting : Nat) : ofJson? nesting c.toJson = some c := by
  have hfields : c.toJson.fields? ["column", "op", "value"] false =
      some [some (.text c.column), some (.text c.op.tag),
        some ((c.value.map Json.text).getD .null)] := rfl
  have hop : (Json.text c.op.tag).variant? CompareOp.ofTag? (0 < nesting) = some c.op :=
    CompareOp.ofTag?_tag c.op
  rw [ofJson?, hfields]
  dsimp only
  rw [hop, valueOfJson?_text_or_null]
  rfl

end Comparison

/-! ### Trees -/

namespace Expr

/-- **Every level of a tree takes two objects of its JSON.** -/
theorem nesting_toJson (e : Expr) : e.toJson.nesting = 2 * e.depth := by
  induction e with
  | comparison c =>
    rw [toJson, Json.nesting_record_cons, Json.nesting_record_nil, c.nesting_toJson,
      depth_comparison]
    omega
  | logical l op r ihl ihr =>
    simp only [toJson, Json.nesting_record_cons, Json.nesting_record_nil, Json.nesting_text, ihl,
      ihr, depth_logical]
    omega

theorem legible_toJson (e : Expr) : e.toJson.Each JsonScalar.Legible := by
  induction e with
  | comparison c => exact .object (List.forall_mem_cons.mpr ⟨c.legible_toJson, nofun⟩)
  | logical l op r ihl ihr =>
    refine .object (List.forall_mem_cons.mpr ⟨.object ?_, nofun⟩)
    refine List.forall_mem_cons.mpr ⟨ihl, List.forall_mem_cons.mpr ⟨?_, ?_⟩⟩
    · exact .scalar (JsonScalar.legible_string _)
    · exact List.forall_mem_cons.mpr ⟨ihr, nofun⟩

/-- A joined tree is read by its two sides, each with room for two objects less. -/
theorem ofJson?_logical (nesting : Nat) (l : Expr) (op : Connective) (r : Expr) :
    ofJson? (nesting + 2) (logical l op r).toJson = (do
      let l ← ofJson? nesting l.toJson
      let r ← ofJson? nesting r.toJson
      return logical l op r) := by
  have hop : (Json.text op.tag).variant? Connective.ofTag? (0 < nesting) = some op :=
    Connective.ofTag?_tag op
  have hfields : (Json.record [("left", l.toJson), ("op", .text op.tag),
      ("right", r.toJson)]).fields? ["left", "op", "right"] false =
      some [some l.toJson, some (.text op.tag), some r.toJson] := rfl
  rw [toJson]
  show (if "Logical" = "Comparison" then _ else if "Logical" = "Logical" then _ else _) = _
  rw [if_neg (by decide), if_pos rfl, hfields]
  dsimp only
  rw [hop]
  rfl

/-- **A tree is what its JSON stands for**, as long as there is room for its levels. -/
theorem ofJson?_toJson (nesting : Nat) (e : Expr) :
    ofJson? nesting e.toJson = if 2 * e.depth ≤ nesting then some e else none := by
  induction e generalizing nesting with
  | comparison c =>
    rw [depth_comparison]
    match nesting with
    | 0 => rfl
    | 1 => rfl
    | nesting + 2 =>
      show (Comparison.ofJson? nesting c.toJson).map comparison = _
      rw [c.ofJson?_toJson, if_pos (by omega)]
      rfl
  | logical l op r ihl ihr =>
    rw [depth_logical]
    match nesting with
    | 0 => rw [if_neg (by omega)]; rfl
    | 1 => rw [if_neg (by omega)]; rfl
    | nesting + 2 =>
      rw [ofJson?_logical, ihl, ihr]
      -- The deeper side decides whether there is room.
      by_cases hl : 2 * l.depth ≤ nesting
      · by_cases hr : 2 * r.depth ≤ nesting
        · rw [if_pos hl, if_pos hr, if_pos (by omega)]
          rfl
        · rw [if_pos hl, if_neg hr, if_neg (by omega)]
          rfl
      · have hdeep : ¬ 2 * (max l.depth r.depth + 1) ≤ nesting + 2 := by omega
        rw [if_neg hl, if_neg hdeep]
        rfl

theorem read?_write (e : Expr) :
    read? e.write = if 2 * e.depth ≤ jsonNesting then some e else none := by
  rw [read?, write, Json.read?_write e.legible_toJson, Option.bind_some, ofJson?_toJson]

/-- **A tree reads back exactly up to the bound of the reader.**  Whatever its columns,
operators and values are, complete or not: if at most `jsonNesting` objects are nested in
its JSON, two for every level, then its text reads back as the same tree; if there are
more, the text is refused. -/
theorem read?_write_eq_ite (e : Expr) :
    e.toJson.nesting = 2 * e.depth ∧
      read? e.write = if e.toJson.nesting ≤ jsonNesting then some e else none := by
  refine ⟨e.nesting_toJson, ?_⟩
  rw [nesting_toJson, read?_write]

/-- A tree that only grows to the right, of depth `n + 1`; its leaves have no value, and a
column that needs escapes. -/
def staircase : Nat → Expr
  | 0 => .comparison ⟨"a\"\\\né", .eq, none⟩
  | n + 1 => .logical (.comparison ⟨"a\"\\\né", .eq, none⟩) .or (staircase n)

theorem depth_staircase (n : Nat) : (staircase n).depth = n + 1 := by
  induction n with
  | zero => exact depth_comparison _
  | succ n ih =>
    rw [staircase, depth_logical, depth_comparison, ih]
    omega

/-- A tree of 63 levels reads back, and a tree of 64 levels, with 128 nested objects, does
not. -/
theorem read?_write_staircase :
    read? (staircase 62).write = some (staircase 62) ∧
      (staircase 63).toJson.nesting = 128 ∧ read? (staircase 63).write = none := by
  refine ⟨?_, ?_, ?_⟩
  · rw [read?_write, depth_staircase, if_pos (by decide)]
  · rw [nesting_toJson, depth_staircase]
  · rw [read?_write, depth_staircase, if_neg (by decide)]

end Expr

end FilterQuery
