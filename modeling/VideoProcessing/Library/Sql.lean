import Mathlib.Data.Fintype.Basic
import Mathlib.Data.Nat.Notation
import Mathlib.Logic.Function.Basic
import VideoProcessing.Library.Transitions

/-!
# Tables with constraints and the statements that alter them

A schema gives each table its columns, keys, checks and foreign keys, and a `Database` is a schema
together with rows that satisfy it, so a database whose rows break a constraint cannot be written
down. A statement that would leave such rows fails: `Database.step` is `none` there. `Migrates` says
that a list of statements runs to its end, with one rule for each kind of statement.

The tables, the columns and the names of the checks are parameters. A check is of the form
`column IN (...)`; as in SQL, `NULL` passes every check and collides with nothing under a unique
key.
-/

namespace Sql

open Transitions

/-- A stored value; a text is its code points. -/
inductive Value where
  | null
  | uuid (id : BitVec 128)
  | text (s : List ℕ)
  | integer (n : ℤ)
  | timestamp (t : ℤ)
deriving DecidableEq

inductive ColumnType where
  | uuid
  | varchar (length : ℕ)
  | integer
  | timestamptz
deriving DecidableEq

/-- Values that are not null and that the type stores. -/
def ColumnType.admits : ColumnType → Value → Bool
  | .uuid, .uuid _ => true
  | .varchar length, .text s => decide (s.length ≤ length)
  | .integer, .integer n => decide (-2147483648 ≤ n ∧ n ≤ 2147483647)
  | .timestamptz, .timestamp _ => true
  | _, _ => false

structure ColumnDef where
  type : ColumnType
  nullable : Bool
deriving DecidableEq

def ColumnDef.admits (c : ColumnDef) (v : Value) : Bool :=
  if v = .null then c.nullable else c.type.admits v

/-- A row; a column that its table does not have is null. -/
abbrev Row (κ : Type*) := κ → Value

/-- `CHECK (column IN (values))`. -/
structure Check (κ : Type*) where
  column : κ
  values : List (List ℕ)

/-- `FOREIGN KEY (column) REFERENCES table (key)`. -/
structure ForeignKey (τ κ : Type*) where
  column : κ
  table : τ
  key : κ

@[ext] structure TableDef (τ κ ν : Type*) where
  columns : κ → Option ColumnDef
  primaryKey : List κ
  uniques : List (List κ)
  checks : ν → Option (Check κ)
  foreignKeys : List (ForeignKey τ κ)

abbrev Schema (τ κ ν : Type*) := τ → Option (TableDef τ κ ν)

/-- The rows of every table. -/
abbrev Rows (τ κ : Type*) := τ → List (Row κ)

variable {τ κ ν : Type*}

/-! ## What a schema asks of its rows -/

def Check.Passes (check : Check κ) (r : Row κ) : Prop :=
  r check.column = .null ∨ ∃ s ∈ check.values, r check.column = .text s

instance Check.decidablePasses (check : Check κ) (r : Row κ) : Decidable (check.Passes r) :=
  inferInstanceAs (Decidable (_ ∨ _))

/-- Two rows agree in all columns of a key, none of them null. -/
def Collide (key : List κ) (r r' : Row κ) : Prop := ∀ c ∈ key, r c ≠ .null ∧ r' c = r c

instance decidableCollide (key : List κ) (r r' : Row κ) : Decidable (Collide key r r') :=
  inferInstanceAs (Decidable (∀ c ∈ key, _))

/-- The table stores the value in the column. -/
def TableDef.stores (d : TableDef τ κ ν) (c : κ) (v : Value) : Bool :=
  (d.columns c).elim (decide (v = .null)) fun col => col.admits v

/-- All keys of a table that have to be unique. -/
def TableDef.keys (d : TableDef τ κ ν) : List (List κ) := d.primaryKey :: d.uniques

/-- What a table asks of its rows without looking at other tables. -/
structure TableDef.Fits (d : TableDef τ κ ν) (rs : List (Row κ)) : Prop where
  typed : ∀ r ∈ rs, ∀ c, d.stores c (r c) = true
  checked : ∀ r ∈ rs, ∀ name, ∀ check ∈ d.checks name, check.Passes r
  unique : ∀ key ∈ d.keys, rs.Pairwise fun r r' => ¬ Collide key r r'

instance TableDef.decidableFits [Fintype κ] [Fintype ν] (d : TableDef τ κ ν)
    (rs : List (Row κ)) : Decidable (d.Fits rs) :=
  decidable_of_iff ((∀ r ∈ rs, ∀ c, d.stores c (r c) = true) ∧
      (∀ r ∈ rs, ∀ name, ∀ check ∈ d.checks name, check.Passes r) ∧
      ∀ key ∈ d.keys, rs.Pairwise fun r r' => ¬ Collide key r r')
    ⟨fun h => ⟨h.1, h.2.1, h.2.2⟩, fun h => ⟨h.typed, h.checked, h.unique⟩⟩

/-- Every row that refers to another one has its row. -/
def TableDef.Referenced (d : TableDef τ κ ν) (rows : Rows τ κ) (rs : List (Row κ)) : Prop :=
  ∀ f ∈ d.foreignKeys, ∀ r ∈ rs,
    r f.column = .null ∨ ∃ r' ∈ rows f.table, r' f.key = r f.column

instance TableDef.decidableReferenced (d : TableDef τ κ ν) (rows : Rows τ κ)
    (rs : List (Row κ)) : Decidable (d.Referenced rows rs) :=
  inferInstanceAs (Decidable (∀ f ∈ d.foreignKeys, ∀ r ∈ rs, _ ∨ _))

/-- The rows satisfy every constraint of the schema. -/
structure Schema.Holds (s : Schema τ κ ν) (rows : Rows τ κ) : Prop where
  absent : ∀ t, s t = none → rows t = []
  fits : ∀ t, ∀ d ∈ s t, d.Fits (rows t)
  referenced : ∀ t, ∀ d ∈ s t, d.Referenced rows (rows t)

instance Schema.decidableHolds [Fintype τ] [Fintype κ] [Fintype ν] (s : Schema τ κ ν)
    (rows : Rows τ κ) : Decidable (s.Holds rows) :=
  decidable_of_iff ((∀ t, (s t).isNone = true → (rows t).isEmpty = true) ∧
      (∀ t, ∀ d ∈ s t, d.Fits (rows t)) ∧ ∀ t, ∀ d ∈ s t, d.Referenced rows (rows t))
    ⟨fun h => ⟨fun t ht => by simpa [ht] using h.1 t, h.2.1, h.2.2⟩,
      fun h => ⟨fun t ht => by simpa using h.absent t (by simpa using ht), h.fits, h.referenced⟩⟩

/-- In a column that is not null and has a check, every row has one of the texts of the check. -/
theorem TableDef.Fits.exists_text {d : TableDef τ κ ν} {rs : List (Row κ)} (h : d.Fits rs)
    {name : ν} {check : Check κ} {col : ColumnDef} (hcheck : d.checks name = some check)
    (hcol : d.columns check.column = some col) (hnull : col.nullable = false) {r : Row κ}
    (hr : r ∈ rs) : ∃ s ∈ check.values, r check.column = .text s := by
  have htyped := h.typed r hr check.column
  rw [TableDef.stores, hcol, Option.elim_some, ColumnDef.admits] at htyped
  rcases h.checked r hr name check hcheck with hnone | htext
  · rw [if_pos hnone, hnull] at htyped
    exact absurd htyped Bool.false_ne_true
  · exact htext

/-- A column that is checked for membership has one of the texts. -/
theorem Schema.Holds.exists_text {s : Schema τ κ ν} {rows : Rows τ κ} (h : s.Holds rows) (t : τ)
    (name : ν) {d : TableDef τ κ ν} {check : Check κ} {col : ColumnDef} (hd : s t = some d)
    (hcheck : d.checks name = some check) (hcol : d.columns check.column = some col)
    (hnull : col.nullable = false) {r : Row κ} (hr : r ∈ rows t) :
    ∃ v ∈ check.values, r check.column = .text v :=
  (h.fits t d hd).exists_text hcheck hcol hnull hr

/-- A schema and rows that satisfy it. -/
structure Database (τ κ ν : Type*) where
  schema : Schema τ κ ν
  rows : Rows τ κ
  valid : schema.Holds rows

/-- No tables. -/
def Database.empty : Database τ κ ν where
  schema := fun _ => none
  rows := fun _ => []
  valid := ⟨fun _ _ => rfl, fun _ _ h => (by cases h), fun _ _ h => (by cases h)⟩

/-! ## Statements -/

inductive Stmt (τ κ ν : Type*) where
  | createTable (t : τ) (d : TableDef τ κ ν)
  /-- `ALTER TABLE t DROP CONSTRAINT name` -/
  | dropCheck (t : τ) (name : ν)
  /-- `ALTER TABLE t ADD CONSTRAINT name CHECK (...)` -/
  | addCheck (t : τ) (name : ν) (check : Check κ)
  /-- `ALTER TABLE t ALTER COLUMN column TYPE type` -/
  | alterType (t : τ) (column : κ) (type : ColumnType)
  /-- `UPDATE t SET column = value WHERE filter.1 = filter.2` -/
  | update (t : τ) (column : κ) (value : Value) (filter : κ × Value)

/-- The names a statement uses are there, and those it introduces are not. -/
def Stmt.applicable [DecidableEq κ] (s : Schema τ κ ν) : Stmt τ κ ν → Bool
  | .createTable t d => (s t).isNone && d.foreignKeys.all fun f =>
      (s f.table).any fun d' => d'.keys.contains [f.key]
  | .dropCheck t name => (s t).any fun d => (d.checks name).isSome
  | .addCheck t name check => (s t).any fun d =>
      (d.checks name).isNone && (d.columns check.column).isSome
  | .alterType t column _ => (s t).any fun d => (d.columns column).isSome
  | .update t column _ filter => (s t).any fun d =>
      (d.columns column).isSome && (d.columns filter.1).isSome

/-! ## Changing the definition of a table -/

section Checks

variable [DecidableEq ν]

/-- Set or remove the check of a name. -/
def TableDef.setCheck (d : TableDef τ κ ν) (name : ν) (check : Option (Check κ)) :
    TableDef τ κ ν :=
  { d with checks := Function.update d.checks name check }

theorem TableDef.setCheck_checks (d : TableDef τ κ ν) (name : ν) (check : Option (Check κ)) :
    (d.setCheck name check).checks = Function.update d.checks name check := rfl

@[simp] theorem TableDef.setCheck_foreignKeys (d : TableDef τ κ ν) (name : ν)
    (check : Option (Check κ)) : (d.setCheck name check).foreignKeys = d.foreignKeys := rfl

/-- A check may go, and one that all rows pass may come. -/
theorem TableDef.Fits.setCheck {d : TableDef τ κ ν} {rs : List (Row κ)} (h : d.Fits rs) {name : ν}
    {check : Option (Check κ)} (hpass : ∀ r ∈ rs, ∀ c ∈ check, c.Passes r) :
    (d.setCheck name check).Fits rs := by
  refine ⟨h.typed, fun r hr name' c hc => ?_, h.unique⟩
  rw [TableDef.setCheck_checks] at hc
  by_cases heq : name' = name
  · subst heq
    rw [Function.update_self] at hc
    exact hpass r hr c hc
  · rw [Function.update_of_ne heq] at hc
    exact h.checked r hr name' c hc

end Checks

section Columns

variable [DecidableEq κ]

def TableDef.setType (d : TableDef τ κ ν) (column : κ) (type : ColumnType) : TableDef τ κ ν :=
  { d with
    columns := Function.update d.columns column
      ((d.columns column).map fun col => { col with type := type }) }

theorem TableDef.setType_columns (d : TableDef τ κ ν) (column : κ) (type : ColumnType) :
    (d.setType column type).columns = Function.update d.columns column
      ((d.columns column).map fun col => { col with type := type }) := rfl

@[simp] theorem TableDef.setType_foreignKeys (d : TableDef τ κ ν) (column : κ)
    (type : ColumnType) : (d.setType column type).foreignKeys = d.foreignKeys := rfl

/-- The type of a column may become one that stores all values of the column. -/
theorem TableDef.Fits.setType {d : TableDef τ κ ν} {rs : List (Row κ)} (h : d.Fits rs) {column : κ}
    {type : ColumnType} (hadm : ∀ r ∈ rs, r column ≠ .null → type.admits (r column) = true) :
    (d.setType column type).Fits rs := by
  refine ⟨fun r hr c => ?_, h.checked, h.unique⟩
  have hr' := h.typed r hr c
  rw [TableDef.stores] at hr' ⊢
  rw [TableDef.setType_columns]
  by_cases heq : c = column
  · subst heq
    rw [Function.update_self]
    cases hcol : d.columns c with
    | none => simpa [hcol] using hr'
    | some col =>
      rw [hcol, Option.elim_some, ColumnDef.admits] at hr'
      rw [Option.map_some, Option.elim_some, ColumnDef.admits]
      by_cases hnull : r c = .null
      · rwa [if_pos hnull] at hr' ⊢
      · rw [if_neg hnull]
        exact hadm r hr hnull
  · rwa [Function.update_of_ne heq]

/-- What an `UPDATE` makes of a row; `filter.1 = NULL` is true of none. -/
def assign (column : κ) (value : Value) (filter : κ × Value) (r : Row κ) : Row κ :=
  if filter.2 ≠ .null ∧ r filter.1 = filter.2 then Function.update r column value else r

/-- An assignment changes no other column. -/
theorem assign_of_ne {column : κ} {value : Value} {filter : κ × Value} {c : κ} (h : c ≠ column)
    (r : Row κ) : assign column value filter r c = r c := by
  rw [assign]
  split
  · exact Function.update_of_ne h ..
  · rfl

/-- Rows that collide after an `UPDATE` agree in the other columns of the key before it. -/
theorem Collide.of_assign {column : κ} {value : Value} {filter : κ × Value} {key : List κ}
    {r r' r₁ : Row κ} (h : Collide key (assign column value filter r) r₁)
    (hr₁ : ∀ c ≠ column, r₁ c = r' c) : Collide (key.filter (· ≠ column)) r r' := by
  intro c hc
  obtain ⟨hc, hne⟩ := List.mem_filter.mp hc
  have hne : c ≠ column := by simpa using hne
  have hcol := h c hc
  rwa [assign_of_ne hne, hr₁ c hne] at hcol

/-- A column with one value in all rows tells no two of them apart. -/
theorem Collide.of_filter {column : κ} {key : List κ} {r r' : Row κ} (hnull : r column ≠ .null)
    (hsame : r' column = r column) (h : Collide (key.filter (· ≠ column)) r r') :
    Collide key r r' := by
  intro c hc
  by_cases heq : c = column
  · subst heq
    exact ⟨hnull, hsame⟩
  · exact h c (List.mem_filter.mpr ⟨hc, by simpa using heq⟩)

/-- Part of the rows updated: they fit when the new value does and the other columns of each key
that has the column tell the rows apart. -/
theorem TableDef.Fits.assign {d : TableDef τ κ ν} {column : κ} {value : Value} {filter : κ × Value}
    {us vs : List (Row κ)} (h : d.Fits (us ++ vs)) (hstores : d.stores column value = true)
    (hpass : ∀ name, ∀ check ∈ d.checks name, check.column ≠ column)
    (hkeys : ∀ key ∈ d.keys, column ∈ key →
      (us ++ vs).Pairwise fun r r' => ¬ Collide (key.filter (· ≠ column)) r r') :
    d.Fits (us.map (assign column value filter) ++ vs) := by
  have hkeys' : ∀ key ∈ d.keys,
      (us ++ vs).Pairwise fun r r' => ¬ Collide (key.filter (· ≠ column)) r r' := by
    intro key hkey
    by_cases hmem : column ∈ key
    · exact hkeys key hkey hmem
    · rw [List.filter_eq_self.mpr fun c hc => by
        simpa using fun heq : c = column => hmem (heq ▸ hc)]
      exact h.unique key hkey
  refine ⟨fun r hr c => ?_, fun r hr name check hcheck => ?_, fun key hkey => ?_⟩
  · rcases List.mem_append.mp hr with hr | hr
    · obtain ⟨r₀, hr₀, rfl⟩ := List.mem_map.mp hr
      have hr₀ := h.typed r₀ (List.mem_append_left vs hr₀) c
      rw [Sql.assign]
      split
      · by_cases heq : c = column
        · subst heq
          rwa [Function.update_self]
        · rwa [Function.update_of_ne heq]
      · exact hr₀
    · exact h.typed r (List.mem_append_right us hr) c
  · rcases List.mem_append.mp hr with hr | hr
    · obtain ⟨r₀, hr₀, rfl⟩ := List.mem_map.mp hr
      have hne := hpass name check hcheck
      rw [Check.Passes, assign_of_ne hne]
      exact h.checked r₀ (List.mem_append_left vs hr₀) name check hcheck
    · exact h.checked r (List.mem_append_right us hr) name check hcheck
  · obtain ⟨hus, -, hbetween⟩ := List.pairwise_append.mp (hkeys' key hkey)
    have hvs := (List.pairwise_append.mp (h.unique key hkey)).2.1
    -- two updated rows, two others, and an updated row before another
    refine List.pairwise_append.mpr ⟨List.pairwise_map.mpr (hus.imp ?_), hvs, ?_⟩
    · intro r r' hne hcol
      exact hne (hcol.of_assign fun c hc => assign_of_ne hc r')
    · intro r hr r' hr' hcol
      obtain ⟨r₀, hr₀, rfl⟩ := List.mem_map.mp hr
      exact hbetween r₀ hr₀ r' hr' (hcol.of_assign fun c _ => rfl)

end Columns

section Tables

variable [DecidableEq τ]

/-- Change the definition of one table. -/
def Schema.alter (s : Schema τ κ ν) (t : τ) (f : TableDef τ κ ν → TableDef τ κ ν) :
    Schema τ κ ν :=
  Function.update s t ((s t).map f)

/-- The altered table. -/
theorem Schema.alter_self (s : Schema τ κ ν) (t : τ) (f : TableDef τ κ ν → TableDef τ κ ν) :
    s.alter t f t = (s t).map f := Function.update_self ..

/-- Every other table stays. -/
theorem Schema.alter_of_ne (s : Schema τ κ ν) {t t' : τ} (f : TableDef τ κ ν → TableDef τ κ ν)
    (h : t' ≠ t) : s.alter t f t' = s t' := Function.update_of_ne h ..

/-- Rows that fit the new definition of one table, with the foreign keys it had. -/
theorem Schema.Holds.alter {s : Schema τ κ ν} {rows : Rows τ κ} (h : s.Holds rows) {t : τ}
    {f : TableDef τ κ ν → TableDef τ κ ν} (hkeys : ∀ d, (f d).foreignKeys = d.foreignKeys)
    (hfits : ∀ d ∈ s t, d.Fits (rows t) → (f d).Fits (rows t)) : (s.alter t f).Holds rows := by
  refine ⟨fun t' ht' => ?_, fun t' d' hd' => ?_, fun t' d' hd' => ?_⟩ <;>
    by_cases heq : t' = t
  · subst heq
    rw [Schema.alter_self, Option.map_eq_none_iff] at ht'
    exact h.absent t' ht'
  · rw [Schema.alter_of_ne _ _ heq] at ht'
    exact h.absent t' ht'
  · subst heq
    rw [Schema.alter_self] at hd'
    obtain ⟨d, hd, rfl⟩ := Option.map_eq_some_iff.mp hd'
    exact hfits d hd (h.fits t' d hd)
  · rw [Schema.alter_of_ne _ _ heq] at hd'
    exact h.fits t' d' hd'
  · subst heq
    rw [Schema.alter_self] at hd'
    obtain ⟨d, hd, rfl⟩ := Option.map_eq_some_iff.mp hd'
    intro fk hfk
    exact h.referenced t' d hd fk (hkeys d ▸ hfk)
  · rw [Schema.alter_of_ne _ _ heq] at hd'
    exact h.referenced t' d' hd'

/-- Rows of one table exchanged for others that fit, with the same columns where they refer to
other rows or are referred to. -/
theorem Schema.Holds.update {s : Schema τ κ ν} {rows : Rows τ κ} (h : s.Holds rows) {t : τ}
    {d : TableDef τ κ ν} (hd : s t = some d) {f : Row κ → Row κ} (hfits : d.Fits ((rows t).map f))
    (hrefers : ∀ fk ∈ d.foreignKeys, ∀ r, f r fk.column = r fk.column)
    (hreferred : ∀ t', ∀ d' ∈ s t', ∀ fk ∈ d'.foreignKeys, fk.table = t →
      ∀ r, f r fk.key = r fk.key) :
    s.Holds (Function.update rows t ((rows t).map f)) := by
  -- whoever is referred to has kept the column that the reference is to
  have hfound : ∀ t', ∀ d' ∈ s t', ∀ fk ∈ d'.foreignKeys, ∀ v,
      (∃ r' ∈ rows fk.table, r' fk.key = v) →
      ∃ r' ∈ Function.update rows t ((rows t).map f) fk.table, r' fk.key = v := by
    rintro t' d' hd' fk hfk v ⟨r', hr', rfl⟩
    by_cases heq : fk.table = t
    · rw [heq] at hr' ⊢
      rw [Function.update_self]
      exact ⟨f r', List.mem_map_of_mem hr', hreferred t' d' hd' fk hfk heq r'⟩
    · exact ⟨r', by rwa [Function.update_of_ne heq], rfl⟩
  refine ⟨fun t' ht' => ?_, fun t' d' hd' => ?_, fun t' d' hd' fk hfk r hr => ?_⟩ <;>
    by_cases heq : t' = t
  · rw [heq, hd] at ht'
    cases ht'
  · rw [Function.update_of_ne heq]
    exact h.absent t' ht'
  · subst heq
    obtain rfl := Option.some.inj (hd.symm.trans hd')
    rwa [Function.update_self]
  · rw [Function.update_of_ne heq]
    exact h.fits t' d' hd'
  · subst heq
    obtain rfl := Option.some.inj (hd.symm.trans hd')
    rw [Function.update_self] at hr
    obtain ⟨r₀, hr₀, rfl⟩ := List.mem_map.mp hr
    rw [hrefers fk hfk]
    exact (h.referenced t' d hd fk hfk r₀ hr₀).imp_right (hfound t' d hd fk hfk _)
  · rw [Function.update_of_ne heq] at hr
    exact (h.referenced t' d' hd' fk hfk r hr).imp_right (hfound t' d' hd' fk hfk _)

end Tables

/-! ## Running statements -/

section Running

variable [Fintype κ] [Fintype ν]

/-- The rows of a table are rewritten one at a time, each against the constraints of the table with
the rows as they are by then. -/
def TableDef.updateRows (d : TableDef τ κ ν) (f : Row κ → Row κ) :
    List (Row κ) → List (Row κ) → Option (List (Row κ))
  | written, [] => some written
  | written, r :: rs =>
    if d.Fits (written ++ f r :: rs) then d.updateRows f (written ++ [f r]) rs else none

/-- An update goes through when the rows fit however many of them have been rewritten. -/
theorem TableDef.updateRows_eq_some {d : TableDef τ κ ν} {f : Row κ → Row κ}
    {written rs : List (Row κ)}
    (h : ∀ us vs, us ++ vs = rs → d.Fits (written ++ us.map f ++ vs)) :
    d.updateRows f written rs = some (written ++ rs.map f) := by
  induction rs generalizing written with
  | nil => simp [TableDef.updateRows]
  | cons r rs ih =>
    have hr : d.Fits (written ++ f r :: rs) := by simpa using h [r] rs rfl
    rw [TableDef.updateRows, if_pos hr, ih]
    · simp
    · intro us vs heq
      simpa using h (r :: us) vs (by rw [List.cons_append, heq])

variable [Fintype τ]

/-- The rows are held against every constraint of the schema. -/
def Database.commit (s : Schema τ κ ν) (rows : Rows τ κ) : Option (Database τ κ ν) :=
  if h : s.Holds rows then some ⟨s, rows, h⟩ else none

/-- A commit takes the schema and the rows as they are. -/
theorem Database.commit_eq_some {s : Schema τ κ ν} {rows : Rows τ κ} {db : Database τ κ ν} :
    Database.commit s rows = some db ↔ db.schema = s ∧ db.rows = rows := by
  obtain ⟨s', rows', hvalid⟩ := db
  simp only [Database.commit, Option.dite_none_right_eq_some, Option.some.injEq,
    Database.mk.injEq]
  constructor
  · rintro ⟨-, rfl, rfl⟩
    exact ⟨rfl, rfl⟩
  · rintro ⟨rfl, rfl⟩
    exact ⟨hvalid, rfl, rfl⟩

variable [DecidableEq τ] [DecidableEq κ] [DecidableEq ν]

/-- The schema after a statement. -/
def Stmt.schema (s : Schema τ κ ν) : Stmt τ κ ν → Schema τ κ ν
  | .createTable t d => Function.update s t (some d)
  | .dropCheck t name => s.alter t fun d => d.setCheck name none
  | .addCheck t name check => s.alter t fun d => d.setCheck name (some check)
  | .alterType t column type => s.alter t fun d => d.setType column type
  | .update _ _ _ _ => s

/-- The rows after a statement. -/
def Stmt.rewrite (s : Schema τ κ ν) (rows : Rows τ κ) : Stmt τ κ ν → Option (Rows τ κ)
  | .update t column value filter => (s t).bind fun d =>
      (d.updateRows (assign column value filter) [] (rows t)).map (Function.update rows t)
  | _ => some rows

/-- Run a statement: `none` where it violates a constraint. -/
def Database.step (db : Database τ κ ν) (stmt : Stmt τ κ ν) : Option (Database τ κ ν) :=
  if stmt.applicable db.schema = true then
    (stmt.rewrite db.schema db.rows).bind (Database.commit (stmt.schema db.schema))
  else none

/-- A statement runs exactly when its names are right and what it leaves satisfies the schema it
leaves. -/
theorem Database.step_eq_some {db db' : Database τ κ ν} {stmt : Stmt τ κ ν} :
    db.step stmt = some db' ↔ stmt.applicable db.schema = true ∧
      db'.schema = stmt.schema db.schema ∧ stmt.rewrite db.schema db.rows = some db'.rows := by
  simp only [Database.step, Option.ite_none_right_eq_some, Option.bind_eq_some_iff,
    Database.commit_eq_some]
  constructor
  · rintro ⟨hap, rows, hrows, hschema, rfl⟩
    exact ⟨hap, hschema, hrows⟩
  · rintro ⟨hap, hschema, hrows⟩
    exact ⟨hap, _, hrows, hschema, rfl⟩

/-- Statements that define, and do not write rows. -/
def Stmt.isDefinition : Stmt τ κ ν → Bool
  | .update _ _ _ _ => false
  | _ => true

/-- Definitions leave the rows alone, so a run of them leads to a schema that the rows it began with
satisfy. -/
theorem rows_eq_of_exec {db db' : Database τ κ ν} {stmts : List (Stmt τ κ ν)}
    (hdef : stmts.all Stmt.isDefinition = true)
    (hrun : exec Database.step db stmts = some db') : db'.rows = db.rows := by
  induction stmts generalizing db with
  | nil =>
    obtain rfl := Option.some.inj hrun
    rfl
  | cons stmt stmts ih =>
    obtain ⟨db₁, hstep, hrun⟩ := Option.bind_eq_some_iff.mp hrun
    rw [List.all_cons, Bool.and_eq_true] at hdef
    rw [ih hdef.2 hrun]
    obtain ⟨-, -, hrows⟩ := Database.step_eq_some.mp hstep
    cases stmt with
    | update => cases hdef.1
    | _ => exact (Option.some.inj hrows).symm

/-! ## Rules for runs -/

/-- From rows that satisfy `s` the statements run to their end, and leave the schema `s'` and the
rows `rows'`. -/
def Migrates (s : Schema τ κ ν) (rows : Rows τ κ) (stmts : List (Stmt τ κ ν)) (s' : Schema τ κ ν)
    (rows' : Rows τ κ) : Prop :=
  ∀ h : s.Holds rows, ∃ h' : s'.Holds rows',
    exec Database.step ⟨s, rows, h⟩ stmts = some ⟨s', rows', h'⟩

/-- No statement changes nothing. -/
theorem Migrates.nil (s : Schema τ κ ν) (rows : Rows τ κ) : Migrates s rows [] s rows :=
  fun h => ⟨h, rfl⟩

/-- One list of statements after another. -/
theorem Migrates.append {s s₁ s₂ : Schema τ κ ν} {rows rows₁ rows₂ : Rows τ κ}
    {stmts stmts' : List (Stmt τ κ ν)} (h₁ : Migrates s rows stmts s₁ rows₁)
    (h₂ : Migrates s₁ rows₁ stmts' s₂ rows₂) : Migrates s rows (stmts ++ stmts') s₂ rows₂ := by
  intro h
  obtain ⟨hvalid₁, hrun₁⟩ := h₁ h
  obtain ⟨hvalid₂, hrun₂⟩ := h₂ hvalid₁
  exact ⟨hvalid₂, by rw [exec_append, hrun₁, Option.bind_some, hrun₂]⟩

/-- A statement before a list of others. -/
theorem Migrates.cons {s s₁ s₂ : Schema τ κ ν} {rows rows₁ rows₂ : Rows τ κ} {stmt : Stmt τ κ ν}
    {stmts : List (Stmt τ κ ν)} (h₁ : Migrates s rows [stmt] s₁ rows₁)
    (h₂ : Migrates s₁ rows₁ stmts s₂ rows₂) : Migrates s rows (stmt :: stmts) s₂ rows₂ :=
  h₁.append h₂

/-- One statement with the right names runs when what it leaves satisfies the schema it leaves. -/
theorem Migrates.of_rewrite {s : Schema τ κ ν} {rows rows' : Rows τ κ} {stmt : Stmt τ κ ν}
    (hap : stmt.applicable s = true) (hrows : stmt.rewrite s rows = some rows')
    (hvalid : s.Holds rows → (stmt.schema s).Holds rows') :
    Migrates s rows [stmt] (stmt.schema s) rows' := by
  intro h
  have hstep : Database.step ⟨s, rows, h⟩ stmt = some ⟨stmt.schema s, rows', hvalid h⟩ :=
    Database.step_eq_some.mpr ⟨hap, rfl, hrows⟩
  exact ⟨hvalid h, by rw [exec_cons, hstep, Option.bind_some, exec_nil]⟩

/-- A new table has no rows. -/
theorem Migrates.createTable {s : Schema τ κ ν} {rows : Rows τ κ} {t : τ} {d : TableDef τ κ ν}
    (hap : (Stmt.createTable t d).applicable s = true) :
    Migrates s rows [.createTable t d] (Function.update s t (some d)) rows := by
  refine .of_rewrite hap rfl fun h => ?_
  rw [Stmt.applicable, Bool.and_eq_true, Option.isNone_iff_eq_none] at hap
  have hempty := h.absent t hap.1
  refine ⟨fun t' ht' => ?_, fun t' d' hd' => ?_, fun t' d' hd' => ?_⟩ <;>
    by_cases heq : t' = t
  · subst heq
    exact hempty
  · rw [Stmt.schema, Function.update_of_ne heq] at ht'
    exact h.absent t' ht'
  · subst heq
    rw [hempty]
    exact ⟨by simp, by simp, fun _ _ => .nil⟩
  · rw [Stmt.schema, Function.update_of_ne heq] at hd'
    exact h.fits t' d' hd'
  · subst heq
    rw [hempty]
    exact fun _ _ r hr => absurd hr List.not_mem_nil
  · rw [Stmt.schema, Function.update_of_ne heq] at hd'
    exact h.referenced t' d' hd'

/-- A dropped check leaves the rows alone. -/
theorem Migrates.dropCheck {s : Schema τ κ ν} {rows : Rows τ κ} {t : τ} {name : ν}
    (hap : (Stmt.dropCheck t name).applicable s = true) :
    Migrates s rows [.dropCheck t name] (s.alter t fun d => d.setCheck name none) rows :=
  .of_rewrite hap rfl fun h =>
    h.alter (fun d => d.setCheck_foreignKeys name none) fun _ _ hfits =>
      hfits.setCheck fun _ _ _ hc => (by cases hc)

/-- A check can be added that all rows pass. -/
theorem Migrates.addCheck {s : Schema τ κ ν} {rows : Rows τ κ} {t : τ} {name : ν}
    {check : Check κ} (hap : (Stmt.addCheck t name check).applicable s = true)
    (hpass : ∀ r ∈ rows t, check.Passes r) :
    Migrates s rows [.addCheck t name check] (s.alter t fun d => d.setCheck name (some check))
      rows := by
  refine .of_rewrite hap rfl fun h =>
    h.alter (fun d => d.setCheck_foreignKeys name (some check)) fun _ _ hfits => hfits.setCheck ?_
  rintro r hr _ ⟨⟩
  exact hpass r hr

/-- A column can be given a type that stores all its values. -/
theorem Migrates.alterType {s : Schema τ κ ν} {rows : Rows τ κ} {t : τ} {column : κ}
    {type : ColumnType} (hap : (Stmt.alterType t column type).applicable s = true)
    (hadm : ∀ r ∈ rows t, r column ≠ .null → type.admits (r column) = true) :
    Migrates s rows [.alterType t column type] (s.alter t fun d => d.setType column type) rows :=
  .of_rewrite hap rfl fun h =>
    h.alter (fun d => d.setType_foreignKeys column type) fun _ _ hfits => hfits.setType hadm

/-- A value can be written into a column that no check, no foreign key and no reference is about,
where the other columns of its keys tell the rows apart. -/
theorem Migrates.update {s : Schema τ κ ν} {rows : Rows τ κ} {t : τ} {d : TableDef τ κ ν}
    {column : κ} {value : Value} {filter : κ × Value} (hd : s t = some d)
    (hap : (Stmt.update t column value filter).applicable s = true)
    (hstores : d.stores column value = true)
    (hpass : ∀ name, ∀ check ∈ d.checks name, check.column ≠ column)
    (hkeys : ∀ key ∈ d.keys, column ∈ key →
      (rows t).Pairwise fun r r' => ¬ Collide (key.filter (· ≠ column)) r r')
    (hrefers : ∀ fk ∈ d.foreignKeys, fk.column ≠ column)
    (hreferred : ∀ t', ∀ d' ∈ s t', ∀ fk ∈ d'.foreignKeys, fk.table = t → fk.key ≠ column) :
    Migrates s rows [.update t column value filter] s
      (Function.update rows t ((rows t).map (assign column value filter))) := by
  intro h
  have hfits : ∀ us vs, us ++ vs = rows t →
      d.Fits (us.map (assign column value filter) ++ vs) := by
    intro us vs heq
    refine TableDef.Fits.assign ?_ hstores hpass ?_ <;> rw [heq]
    · exact h.fits t d hd
    · exact hkeys
  have hrows : (Stmt.update t column value filter).rewrite s rows =
      some (Function.update rows t ((rows t).map (assign column value filter))) := by
    rw [Stmt.rewrite, hd, Option.bind_some, TableDef.updateRows_eq_some hfits, Option.map_some,
      List.nil_append]
  refine Migrates.of_rewrite hap hrows (fun h => h.update hd ?_ ?_ ?_) h
  · simpa using hfits (rows t) [] (List.append_nil _)
  · exact fun fk hfk r => assign_of_ne (hrefers fk hfk) r
  · exact fun t' d' hd' fk hfk ht r => assign_of_ne (hreferred t' d' hd' fk hfk ht) r

end Running

end Sql
