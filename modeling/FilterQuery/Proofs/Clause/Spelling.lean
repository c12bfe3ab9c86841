/-
The spelling of names does not matter.

* **`Expr.Respelled`** — trees that differ in the spelling of their columns at most;
* **`Draft.Respelled`** — drafts of options that differ in the spelling of names at most;
* **`Options.Agree`** — options that give the same answer on every name, in whatever
  spelling it is asked for;
* **`Draft.Respelled.agree`** — drafts that differ in spelling are built to such options;
* **`compileFor_respelled`** — trees and options that differ in spelling have the same
  clause, or errors of the same kind.

Design notes.  A name is looked up in five places: among the other names, in the catalogue,
among the converters, among the columns, and, when the catalogue is made, among the fields
that are left out.  `Options.Agree` says of each place what it has to say; the compiler is
compared through it alone.
-/
import FilterQuery.Proofs.Clause.Composition
import FilterQuery.Proofs.Options.Index
import Mathlib.Data.List.Induction

namespace FilterQuery

/-! ### What may differ -/

/-- Comparisons whose columns are two spellings of one name. -/
structure Comparison.Respelled (c d : Comparison) : Prop where
  left_ne : c.column ≠ ""
  right_ne : d.column ≠ ""
  column : Name.key c.column = Name.key d.column
  op : c.op = d.op
  value : c.value = d.value

/-- Trees that differ in the spelling of their columns at most. -/
inductive Expr.Respelled : Expr → Expr → Prop
  | comparison {c d : Comparison} : c.Respelled d → Respelled (.comparison c) (.comparison d)
  | logical {l l' r r' : Expr} (op : Connective) :
      Respelled l l' → Respelled r r' → Respelled (.logical l op r) (.logical l' op r')

/-- Every element of one list has a counterpart in the other. -/
def Corresponds {α : Type} (R : α → α → Prop) (as bs : List α) : Prop :=
  (∀ a ∈ as, ∃ b ∈ bs, R a b) ∧ (∀ b ∈ bs, ∃ a ∈ as, R a b)

/-- Drafts that differ in the spelling of names at most, and in the order of what has no
order. -/
structure Draft.Respelled (d d' : Draft) : Prop where
  placeholder : d.settings.placeholder = d'.settings.placeholder
  columnMap : Corresponds (fun e f => Name.key e.1 = Name.key f.1 ∧ Name.key e.2 = Name.key f.2)
    d.settings.columnMap.entries d'.settings.columnMap.entries
  tableColumnMap : Corresponds (fun e f => Name.key e.1 = Name.key f.1 ∧ e.2 = f.2)
    d.settings.tableColumnMap.entries d'.settings.tableColumnMap.entries
  ignored : Corresponds (fun a b => Name.key a = Name.key b)
    d.settings.ignored d'.settings.ignored
  converters : Corresponds (fun e f => Name.key e.1 = Name.key f.1 ∧ e.2 = f.2)
    d.converters d'.converters

/-- Errors that differ in the spelling of a name at most.  They are of the same kind. -/
inductive Error.Respelled : Error → Error → Prop
  | same (x : Error) : Respelled x x
  | unknownColumn {a b : String} :
      Name.key a = Name.key b → Respelled (.unknownColumn a) (.unknownColumn b)
  | unboundComparison {c d : Comparison} :
      c.Respelled d → Respelled (.unboundComparison c) (.unboundComparison d)
  | invalidValue {c d : Comparison} (raw : String) (source : DataError) :
      c.Respelled d →
        Respelled (.invalidValue raw c.render source) (.invalidValue raw d.render source)

/-- The same clause, or errors that differ in the spelling of a name at most. -/
inductive SameOutcome : Except Error Clause → Except Error Clause → Prop
  | ok (k : Clause) : SameOutcome (.ok k) (.ok k)
  | error {x y : Error} : x.Respelled y → SameOutcome (.error x) (.error y)

theorem SameOutcome.refl (r : Except Error Clause) : SameOutcome r r := by
  cases r with
  | ok k => exact .ok k
  | error x => exact .error (.same x)

/-! ### Options that agree -/

/-- Options that give the same answer on every name. -/
structure Options.Agree (o o' : Options) : Prop where
  placeholder : o.settings.placeholder = o'.settings.placeholder
  target : ∀ {a b : String}, Name.key a = Name.key b →
    Name.key ((o.alias? a).getD a) = Name.key ((o'.alias? b).getD b)
  tableColumn : ∀ name, o.tableColumn? name = o'.tableColumn? name
  converter : ∀ name, o.converter? name = o'.converter? name
  ignored : ∀ key, key ∈ Catalog.ignoredKeys o ↔ key ∈ Catalog.ignoredKeys o'

/-- Tables of corresponding entries find corresponding values under the same key. -/
theorem Table.Indexes.rel {α : Type} {R : α → α → Prop} {t t' : Table α}
    {es es' : List (String × α)} (ht : t.Indexes es) (ht' : t'.Indexes es')
    (h : Corresponds (fun e f => Name.key e.1 = Name.key f.1 ∧ R e.2 f.2) es es')
    (key : String) : Option.Rel R (t.get? key) (t'.get? key) := by
  cases ha : t.get? key with
  | some a =>
    obtain ⟨e, he, rfl, rfl⟩ := (ht key a).mp ha
    obtain ⟨f, hf, hkey, hR⟩ := h.1 e he
    rw [(ht' (Name.key e.1) f.2).mpr ⟨f, hf, hkey.symm, rfl⟩]
    exact .some hR
  | none =>
    cases hb : t'.get? key with
    | none => exact .none
    | some b =>
      -- The counterpart of what is found on the right would be found on the left.
      obtain ⟨f, hf, rfl, rfl⟩ := (ht' key b).mp hb
      obtain ⟨e, he, hkey, -⟩ := h.2 f hf
      rw [(ht (Name.key f.1) e.2).mpr ⟨e, he, hkey, rfl⟩] at ha
      cases ha

theorem Table.Indexes.get?_eq {α : Type} {t t' : Table α} {es es' : List (String × α)}
    (ht : t.Indexes es) (ht' : t'.Indexes es')
    (h : Corresponds (fun e f => Name.key e.1 = Name.key f.1 ∧ e.2 = f.2) es es')
    (key : String) : t.get? key = t'.get? key := by
  have hrel := ht.rel ht' h key
  generalize t.get? key = a, t'.get? key = b at hrel
  cases hrel with
  | some hab => rw [hab]
  | none => rfl

theorem mem_ignoredKeys_of_corresponds {o o' : Options}
    (h : Corresponds (fun a b => Name.key a = Name.key b) o.settings.ignored o'.settings.ignored)
    (key : String) : key ∈ Catalog.ignoredKeys o ↔ key ∈ Catalog.ignoredKeys o' := by
  simp only [Catalog.ignoredKeys, List.mem_map]
  constructor
  · rintro ⟨a, ha, rfl⟩
    obtain ⟨b, hb, hkey⟩ := h.1 a ha
    exact ⟨b, hb, hkey.symm⟩
  · rintro ⟨b, hb, rfl⟩
    obtain ⟨a, ha, hkey⟩ := h.2 b hb
    exact ⟨a, ha, hkey⟩

/-- **Drafts that differ in spelling at most are built to options that agree.** -/
theorem Draft.Respelled.agree {d d' : Draft} {o o' : Options} (hd : d.Respelled d')
    (h : d.build = .ok o) (h' : d'.build = .ok o') : o.Agree o' := by
  have hi := build_indexes h
  have hi' := build_indexes h'
  constructor
  · rw [hi.settings, hi'.settings, hd.placeholder]
  · intro a b hkey
    have hrel := hi.aliases.rel (R := fun a b => Name.key a = Name.key b) hi'.aliases
      hd.columnMap (Name.key a)
    simp only [Options.alias?, ← hkey]
    generalize o.aliases.get? (Name.key a) = x, o'.aliases.get? (Name.key a) = y at hrel
    cases hrel with
    | some htarget => exact htarget
    | none => exact hkey
  · intro name
    exact hi.tableColumns.get?_eq hi'.tableColumns hd.tableColumnMap (Name.key name)
  · intro name
    exact hi.converters.get?_eq hi'.converters hd.converters (Name.key name)
  · have hignored := hd.ignored
    rw [← hi.settings, ← hi'.settings] at hignored
    exact mem_ignoredKeys_of_corresponds hignored

/-! ### Compiling under options that agree -/

namespace Options.Agree

variable {o o' : Options}

/-- The same fields are left out, so the catalogues are the same. -/
theorem ofSchema (h : o.Agree o') (s : Schema) : Catalog.ofSchema s o = Catalog.ofSchema s o' := by
  have hcontains : ∀ key,
      (Catalog.ignoredKeys o).contains key = (Catalog.ignoredKeys o').contains key := by
    intro key
    rw [Bool.eq_iff_iff, List.contains_iff_mem, List.contains_iff_mem]
    exact h.ignored key
  have hstep : Catalog.addField (Catalog.ignoredKeys o) =
      Catalog.addField (Catalog.ignoredKeys o') := by
    funext fields entry
    simp only [Catalog.addField, hcontains]
  rw [Catalog.ofSchema, Catalog.ofSchema, hstep]

theorem columnText (h : o.Agree o') (f : Field) : f.columnText o = f.columnText o' := by
  rw [Field.columnText, Field.columnText, h.tableColumn]

/-- Two spellings of a column stand for the same field, or for none. -/
theorem resolve (h : o.Agree o') (catalog : Catalog) {c d : Comparison} (hc : c.Respelled d) :
    (∃ f, c.resolve catalog o = .ok f ∧ d.resolve catalog o' = .ok f) ∨
      ∃ a b, Name.key a = Name.key b ∧ c.resolve catalog o = .error (.unknownColumn a) ∧
        d.resolve catalog o' = .error (.unknownColumn b) := by
  have hkey := h.target hc.column
  have hget : catalog.get? ((o'.alias? d.column).getD d.column) =
      catalog.get? ((o.alias? c.column).getD c.column) := by
    rw [Catalog.get?, Catalog.get?, hkey]
  rw [Comparison.resolve, Comparison.resolve, hget]
  cases catalog.get? ((o.alias? c.column).getD c.column) with
  | some f => exact .inl ⟨f, rfl, rfl⟩
  | none => exact .inr ⟨_, _, hkey, rfl, rfl⟩

theorem field_compile (h : o.Agree o') {c d : Comparison} (hc : c.Respelled d) (f : Field)
    (bound : Nat) : SameOutcome (f.compile o bound c) (f.compile o' bound d) := by
  rw [Field.compile, Field.compile, hc.value, hc.op, h.columnText, h.placeholder]
  cases d.value with
  | none => exact .error (.unboundComparison hc)
  | some raw =>
    dsimp only
    split
    · exact .error (.same _)
    · -- The value is read without regard to the column; only its error names the comparison.
      rw [Field.read, Field.read]
      cases f.type.read raw with
      | ok v => exact .ok _
      | error source => exact .error (.invalidValue raw source hc)

/-- A comparison in two spellings has the same clause. -/
theorem compile (h : o.Agree o') (catalog : Catalog) {c d : Comparison} (hc : c.Respelled d)
    (bound : Nat) :
    SameOutcome (c.compile catalog o bound) (d.compile catalog o' bound) := by
  rw [Comparison.compile, Comparison.compile, if_neg hc.left_ne, if_neg hc.right_ne]
  rcases h.resolve catalog hc with ⟨f, hf, hf'⟩ | ⟨a, b, hkey, ha, hb⟩
  · simp only [hf, hf', ← h.converter f.column]
    cases o.converter? f.column with
    | none => exact h.field_compile hc f bound
    | some convert =>
      -- The converter is given the declared name of the field, not the name in the query.
      dsimp only
      rw [hc.op, hc.value, h.placeholder]
      exact .refl _
  · simp only [ha, hb]
    exact .error (.unknownColumn hkey)

end Options.Agree

namespace Expr

theorem Respelled.length_leaves {e e' : Expr} (h : e.Respelled e') :
    e.leaves.length = e'.leaves.length := by
  induction h with
  | comparison => rw [leaves_comparison, leaves_comparison, List.length_singleton,
      List.length_singleton]
  | logical op _ _ ihl ihr =>
    rw [leaves_logical, leaves_logical, List.length_append, List.length_append, ihl, ihr]

/-- Below the last level, both trees are refused alike. -/
theorem Respelled.compileAt_of_lt {e e' : Expr} (he : e.Respelled e') {level : Nat}
    (hlevel : depthLimit < level) (o o' : Options) (catalog : Catalog) (bound : Nat) :
    SameOutcome (e.compileAt catalog o level bound) (e'.compileAt catalog o' level bound) := by
  have hsubject : e.depthSubject = e'.depthSubject := by
    unfold depthSubject
    rw [he.length_leaves]
  rw [Expr.compileAt_of_lt hlevel, Expr.compileAt_of_lt hlevel, hsubject]
  exact .refl _

/-- Trees in two spellings have the same clause under options that agree. -/
theorem Respelled.compileAt {e e' : Expr} (he : e.Respelled e') {o o' : Options}
    (h : o.Agree o') (catalog : Catalog) (level bound : Nat) :
    SameOutcome (e.compileAt catalog o level bound) (e'.compileAt catalog o' level bound) := by
  induction he generalizing level bound with
  | comparison hc =>
    by_cases hlevel : depthLimit < level
    · exact (Respelled.comparison hc).compileAt_of_lt hlevel o o' catalog bound
    · rw [Expr.compileAt, Expr.compileAt, if_neg hlevel, if_neg hlevel]
      exact h.compile catalog hc bound
  | @logical l l' r r' op hl hr ihl ihr =>
    by_cases hlevel : depthLimit < level
    · exact (Respelled.logical op hl hr).compileAt_of_lt hlevel o o' catalog bound
    · rw [Expr.compileAt, Expr.compileAt, if_neg hlevel, if_neg hlevel]
      have hleft := ihl (level + 1) bound
      generalize l.compileAt catalog o (level + 1) bound = a,
        l'.compileAt catalog o' (level + 1) bound = a' at hleft
      cases hleft with
      | error hx => exact .error hx
      | ok a =>
        -- Both left sides bind the same arguments, so both right sides start alike.
        have hright := ihr (level + 1) (bound + a.args.length)
        dsimp only
        generalize r.compileAt catalog o (level + 1) (bound + a.args.length) = b,
          r'.compileAt catalog o' (level + 1) (bound + a.args.length) = b' at hright
        cases hright with
        | error hx => exact .error hx
        | ok b => exact .refl _

/-- The clause of a tree for a schema. -/
def compileFor (e : Expr) (s : Schema) (o : Options) : Except Error Clause := do
  let catalog ← Catalog.ofSchema s o
  e.compile catalog o

end Expr

/-- **The spelling of names does not matter.**  Let two trees differ in the spelling of their
columns at most, none of them empty, and let two sets of options be built from drafts that
differ in the spelling of names at most.  For every schema, one tree has a clause exactly
if the other one has it, and if there is none, the two errors differ in the spelling of a
name at most. -/
theorem compileFor_respelled (s : Schema) (d₁ d₂ : Draft) (o₁ o₂ : Options) (e₁ e₂ : Expr)
    (hd : d₁.Respelled d₂) (h₁ : d₁.build = .ok o₁) (h₂ : d₂.build = .ok o₂)
    (he : e₁.Respelled e₂) :
    (∀ k, e₁.compileFor s o₁ = .ok k ↔ e₂.compileFor s o₂ = .ok k) ∧
    (∀ x, e₁.compileFor s o₁ = .error x →
      ∃ y, e₂.compileFor s o₂ = .error y ∧ x.Respelled y) := by
  have hagree := hd.agree h₁ h₂
  have houtcome : SameOutcome (e₁.compileFor s o₁) (e₂.compileFor s o₂) := by
    rw [Expr.compileFor, Expr.compileFor, ← hagree.ofSchema s]
    cases Catalog.ofSchema s o₁ with
    | error x => exact .error (.same x)
    | ok catalog => exact he.compileAt hagree catalog 1 0
  generalize e₁.compileFor s o₁ = r₁, e₂.compileFor s o₂ = r₂ at houtcome
  cases houtcome with
  | ok k => exact ⟨fun _ => Iff.rfl, fun x hx => nomatch hx⟩
  | @error x y hxy =>
    refine ⟨fun k => ⟨nofun, nofun⟩, fun z hz => ?_⟩
    cases hz
    exact ⟨y, rfl, hxy⟩

theorem corresponds_singleton {α : Type} {R : α → α → Prop} {a b : α} (h : R a b) :
    Corresponds R [a] [b] := by
  simp [Corresponds, h]

/-- A club with the names, the ages and the secrets of its members. -/
def clubSchema : Schema :=
  ((Schema.empty.declare "name" (some .string)).declare "age" (some .int)).declare "secret"
    (some .string)

/-- A draft whose names are given: another name and what it stands for, a field with a column
of its own, a field that is left out, and a field with a converter. -/
def clubDraft (nick name column hidden age : String) : Draft where
  settings :=
    { placeholder := .numbered
      columnMap := Table.empty.put nick name
      tableColumnMap := Table.empty.put column "m.name"
      ignored := [hidden] }
  converters := [(age, fun column op value =>
    .ok ⟨column ++ op.sql ++ "?", [.text (value.getD "")]⟩)]

/-- The options of such a draft. -/
def clubOptions (nick name column hidden age : String) : Options where
  settings := (clubDraft nick name column hidden age).settings
  aliases := Table.empty.put (Name.key nick) name
  tableColumns := Table.empty.put (Name.key column) "m.name"
  converters := Table.empty.put (Name.key age) fun column op value =>
    .ok ⟨column ++ op.sql ++ "?", [.text (value.getD "")]⟩

/-- Two comparisons with columns that are given. -/
def clubTree (first second : String) : Expr :=
  .logical (.comparison ⟨first, .eq, some "x"⟩) .or (.comparison ⟨second, .gt, some "7"⟩)

theorem indexColumns_single (name target : String) :
    indexColumns (Table.empty.put name target) = .ok (Table.empty.put (Name.key name) target) := by
  rw [indexColumns, Table.sorted]
  show List.foldlM indexColumn Table.empty (List.mergeSort [(name, target)] _) = _
  rw [List.mergeSort_singleton]
  rfl

theorem build_clubDraft {age : String} (h : Text.isBlank age = false)
    (nick name column hidden : String) :
    (clubDraft nick name column hidden age).build =
      .ok (clubOptions nick name column hidden age) := by
  simp only [Draft.build, clubDraft, indexColumns_single, List.foldlM_cons, indexConverter, h]
  rfl

/-- A name by its other name and an age with a converter, in two spellings throughout; and a
field that is left out, not found in either. -/
theorem compileFor_club_respelled :
    let o₁ := clubOptions "Nick" "na_me" "NAME" "secret" "Age"
    let o₂ := clubOptions "ni_ck" "Name" "name" "SEC_RET" "a_g_e"
    let k : Clause := ⟨"(m.name=$1 or age>$2)", [.text "x", .text "7"]⟩
    (clubTree "nick" "AGE").compileFor clubSchema o₁ = .ok k ∧
    (clubTree "NICK_" "age").compileFor clubSchema o₂ = .ok k ∧
    (clubTree "nick" "Secret").compileFor clubSchema o₁ = .error (.unknownColumn "Secret") ∧
    ∃ y, (clubTree "NICK_" "s_ecret").compileFor clubSchema o₂ = .error y ∧
      Error.Respelled (.unknownColumn "Secret") y := by
  intro o₁ o₂ k
  have hd : (clubDraft "Nick" "na_me" "NAME" "secret" "Age").Respelled
      (clubDraft "ni_ck" "Name" "name" "SEC_RET" "a_g_e") := by
    refine ⟨rfl, ?_, ?_, ?_, ?_⟩
    · exact corresponds_singleton ⟨by decide +kernel, by decide +kernel⟩
    · exact corresponds_singleton ⟨by decide +kernel, rfl⟩
    · exact corresponds_singleton (by decide +kernel)
    · exact corresponds_singleton ⟨by decide +kernel, rfl⟩
  have h₁ : Draft.build _ = .ok o₁ := build_clubDraft (by decide +kernel) _ _ _ _
  have h₂ : Draft.build _ = .ok o₂ := build_clubDraft (by decide +kernel) _ _ _ _
  have hage : (clubTree "nick" "AGE").Respelled (clubTree "NICK_" "age") :=
    .logical .or (.comparison ⟨by decide, by decide, by decide +kernel, rfl, rfl⟩)
      (.comparison ⟨by decide, by decide, by decide +kernel, rfl, rfl⟩)
  have hsecret : (clubTree "nick" "Secret").Respelled (clubTree "NICK_" "s_ecret") :=
    .logical .or (.comparison ⟨by decide, by decide, by decide +kernel, rfl, rfl⟩)
      (.comparison ⟨by decide, by decide, by decide +kernel, rfl, rfl⟩)
  have hk : (clubTree "nick" "AGE").compileFor clubSchema o₁ = .ok k := by decide +kernel
  have hx : (clubTree "nick" "Secret").compileFor clubSchema o₁ =
      .error (.unknownColumn "Secret") := by decide +kernel
  refine ⟨hk, ?_, hx, ?_⟩
  · exact ((compileFor_respelled clubSchema _ _ o₁ o₂ _ _ hd h₁ h₂ hage).1 k).mp hk
  · exact (compileFor_respelled clubSchema _ _ o₁ o₂ _ _ hd h₁ h₂ hsecret).2 _ hx

end FilterQuery
