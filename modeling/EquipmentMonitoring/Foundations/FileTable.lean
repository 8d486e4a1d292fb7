import EquipmentMonitoring.Foundations.Utf8
import Mathlib.Data.List.Nodup
import Mathlib.Data.Rat.Defs
import Mathlib.Algebra.Order.Ring.Rat

/-!
# Tables in a Database File

A database that keeps its tables in one file checks little of what is in them: any cell may hold a
value of any type, and a table may have been made with any columns and any primary key. What it
does maintain is part of the type: each row has the cells of its columns, no two columns share a
name, and no two rows share a key.

Texts compare octet by octet, and a cell holds the value it is given, under the affinity its column
declares. Collations, affinities other than the declared ones, constraints beyond the primary key,
and other schema objects (views, triggers, further indexes) are outside of the model.

## Key Results

- `addColumn_eq_ok`: ALTER TABLE .. ADD COLUMN
- `updateWhere_eq_ok`: UPDATE .. WHERE, which can violate the primary key
-/

namespace EquipmentMonitoring

/-! ## Values -/

inductive SqlValue where
  | null
  | integer (n : Int)
  | real (q : ℚ)
  | infinity (negative : Bool)
  | text (bytes : Bytes)
  | blob (bytes : Bytes)
deriving DecidableEq

namespace SqlValue

/-- `a = b` in a query; null equals nothing. -/
def equals : SqlValue → SqlValue → Bool
  | .integer n, .integer m => n == m
  -- numbers compare by value, whatever their storage class
  | .integer n, .real q => (n : ℚ) == q
  | .real q, .integer n => q == (n : ℚ)
  | .real p, .real q => p == q
  | .infinity a, .infinity b => a == b
  | .text s, .text t => s == t
  | .blob s, .blob t => s == t
  | _, _ => false

/-- `a < 0` in a query; texts and blobs come after all numbers. -/
def isNegative : SqlValue → Bool
  | .integer n => decide (n < 0)
  | .real q => decide (q < 0)
  | .infinity negative => negative
  | _ => false

theorem equals_text {v : SqlValue} {bytes : Bytes} :
    v.equals (.text bytes) = true ↔ v = .text bytes := by
  cases v <;> simp [equals]

end SqlValue

/-! ## Rows -/

/-- The cells of a row under the names of their columns. -/
abbrev Row := List (Bytes × SqlValue)

namespace Row

def names (row : Row) : List Bytes := row.map Prod.fst

def cell (row : Row) (name : Bytes) : SqlValue := (row.lookup name).getD .null

def setCell (row : Row) (name : Bytes) (v : SqlValue) : Row :=
  row.map fun c => if c.1 = name then (c.1, v) else c

variable {row : Row} {name other : Bytes} {v : SqlValue}

theorem lookup_eq_none : row.lookup name = none ↔ name ∉ row.names := by
  rw [List.lookup_eq_none_iff, names, List.mem_map]
  constructor
  · rintro h ⟨c, hc, rfl⟩
    simpa using h c hc
  · intro h c hc
    by_contra heq
    exact h ⟨c, hc, (by simpa using heq : name = c.1).symm⟩

theorem lookup_isSome : (row.lookup name).isSome = true ↔ name ∈ row.names := by
  rw [Option.isSome_iff_ne_none, ne_eq, lookup_eq_none, not_not]

theorem lookup_cons_self (row : Row) (name : Bytes) (v : SqlValue) :
    ((name, v) :: row).lookup name = some v := List.lookup_cons_self

theorem lookup_cons_ne (row : Row) (v : SqlValue) (h : other ≠ name) :
    ((name, v) :: row).lookup other = row.lookup other := by
  rw [List.lookup_cons, beq_false_of_ne h]

@[simp] theorem names_setCell (row : Row) (name : Bytes) (v : SqlValue) :
    (row.setCell name v).names = row.names := by
  rw [names, setCell, names, List.map_map]
  refine List.map_congr_left fun c _ => ?_
  simp only [Function.comp_apply]
  split <;> rfl

theorem lookup_setCell (row : Row) (name other : Bytes) (v : SqlValue) :
    (row.setCell name v).lookup other =
      if other = name then (row.lookup other).map fun _ => v else row.lookup other := by
  induction row with
  | nil => simp [setCell]
  | cons c rest ih =>
    obtain ⟨m, x⟩ := c
    rw [setCell, List.map_cons, ← setCell]
    by_cases ho : other = m
    · subst ho
      by_cases hm : other = name
      · rw [if_pos hm, if_pos hm, lookup_cons_self, lookup_cons_self]
        rfl
      · rw [if_neg hm, if_neg hm, lookup_cons_self, lookup_cons_self]
    · rw [lookup_cons_ne rest x ho]
      by_cases hm : m = name
      · rw [if_pos hm, lookup_cons_ne _ v ho, ih]
      · rw [if_neg hm, lookup_cons_ne _ x ho, ih]

theorem lookup_append (row : Row) (name other : Bytes) (v : SqlValue) (h : name ∉ row.names) :
    (row ++ [(name, v)]).lookup other = if other = name then some v else row.lookup other := by
  rw [List.lookup_append]
  by_cases ho : other = name
  · subst ho
    rw [lookup_eq_none.mpr h, Option.none_or, lookup_cons_self, if_pos rfl]
  · rw [lookup_cons_ne [] v ho, List.lookup_nil, Option.or_none, if_neg ho]

/-- Two rows agree in all columns of a key. -/
def sameKey (key : List Bytes) (row row' : Row) : Bool :=
  !key.isEmpty && key.all fun name => (row.cell name).equals (row'.cell name)

theorem sameKey_congr {key : List Bytes} {r₁ r₂ r₁' r₂' : Row}
    (h₁ : ∀ name ∈ key, r₁'.cell name = r₁.cell name)
    (h₂ : ∀ name ∈ key, r₂'.cell name = r₂.cell name) :
    sameKey key r₁' r₂' = sameKey key r₁ r₂ := by
  unfold sameKey
  congr 1
  rw [Bool.eq_iff_iff, List.all_eq_true, List.all_eq_true]
  refine forall₂_congr fun name hname => ?_
  rw [h₁ name hname, h₂ name hname]

end Row

/-! ## Tables -/

/-- A column: its name, and its type and constraints. -/
structure Column where
  name : Bytes
  declaration : String
deriving DecidableEq

/-- Names are compared without regard to the case of their letters. -/
def foldCase (name : Bytes) : Bytes := name.map fun b => if 65 ≤ b ∧ b ≤ 90 then b + 32 else b

def foldedNames (columns : List Column) : List Bytes := columns.map fun c => foldCase c.name

/-- No two rows share a key. -/
def KeysDistinct (key : List Bytes) (rows : List Row) : Prop :=
  rows.Pairwise fun row row' => Row.sameKey key row row' = false

instance (key : List Bytes) (rows : List Row) : Decidable (KeysDistinct key rows) :=
  inferInstanceAs (Decidable (rows.Pairwise _))

/-- A table: its columns, its primary key and its rows. The declaration of a column is kept as a
text, and no collation and no constraint in it acts on the rows. -/
structure FileTable where
  columns : List Column
  primaryKey : List Bytes
  rows : List Row
  complete : ∀ row ∈ rows, row.names = columns.map Column.name
  keyed : ∀ name ∈ primaryKey, name ∈ columns.map Column.name
  namesDistinct : (foldedNames columns).Nodup
  keysDistinct : KeysDistinct primaryKey rows

namespace FileTable

def names (t : FileTable) : List Bytes := t.columns.map Column.name

/-- `PRAGMA table_info`: each column with its place in the primary key, or 0. -/
def info (t : FileTable) : List (Bytes × Nat) :=
  t.names.map fun name => (name, if name ∈ t.primaryKey then t.primaryKey.idxOf name + 1 else 0)

/-- Two tables with the same columns, key and rows are one. -/
theorem eq_of_parts {t t' : FileTable} (hcolumns : t'.columns = t.columns)
    (hkey : t'.primaryKey = t.primaryKey) (hrows : t'.rows = t.rows) : t' = t := by
  cases t
  cases t'
  simp only at hcolumns hkey hrows
  subst hcolumns hkey hrows
  rfl

/-- CREATE TABLE. -/
def create (columns : List Column) (primaryKey : List Bytes)
    (hkeyed : ∀ name ∈ primaryKey, name ∈ columns.map Column.name)
    (hdistinct : (foldedNames columns).Nodup) : FileTable where
  columns := columns
  primaryKey := primaryKey
  rows := []
  complete _ h := absurd h List.not_mem_nil
  keyed := hkeyed
  namesDistinct := hdistinct
  keysDistinct := List.Pairwise.nil

theorem info_lookup (t : FileTable) (name : Bytes) :
    t.info.lookup name = if name ∈ t.names then
      some (if name ∈ t.primaryKey then t.primaryKey.idxOf name + 1 else 0) else none := by
  unfold info
  induction t.names with
  | nil => rfl
  | cons other rest ih =>
    by_cases h : name = other
    · subst h
      simp
    · rw [List.map_cons, List.lookup_cons, beq_false_of_ne h]
      simp only [ih, List.mem_cons, h, false_or]

/-! ## Adding a Column -/

section AddColumn

variable {t t' : FileTable} {c : Column} {v : SqlValue}

def withCell (rows : List Row) (name : Bytes) (v : SqlValue) : List Row :=
  rows.map fun row => row ++ [(name, v)]

theorem complete_withCell (t : FileTable) (c : Column) (v : SqlValue) :
    ∀ row ∈ withCell t.rows c.name v, row.names = (t.columns ++ [c]).map Column.name := by
  intro row hrow
  obtain ⟨row, hmem, rfl⟩ := List.mem_map.mp hrow
  have hnames := t.complete row hmem
  rw [Row.names] at hnames
  rw [Row.names, List.map_append, List.map_append, hnames]
  rfl

theorem keyed_withCell (t : FileTable) (c : Column) :
    ∀ name ∈ t.primaryKey, name ∈ (t.columns ++ [c]).map Column.name := by
  intro name hname
  rw [List.map_append]
  exact List.mem_append_left _ (t.keyed name hname)

theorem namesDistinct_withCell (t : FileTable) (c : Column)
    (h : foldCase c.name ∉ foldedNames t.columns) : (foldedNames (t.columns ++ [c])).Nodup := by
  rw [foldedNames, List.map_append, List.nodup_append]
  refine ⟨t.namesDistinct, List.nodup_singleton _, ?_⟩
  intro name hname other hother
  obtain rfl : other = foldCase c.name := by simpa using hother
  rintro rfl
  exact h hname

/-- A new name is none of the old ones. -/
theorem name_not_mem (h : foldCase c.name ∉ foldedNames t.columns) : c.name ∉ t.names := by
  intro hmem
  obtain ⟨c', hc', heq⟩ := List.mem_map.mp hmem
  exact h (List.mem_map.mpr ⟨c', hc', congrArg foldCase heq⟩)

theorem keysDistinct_withCell (t : FileTable) (c : Column) (v : SqlValue)
    (h : foldCase c.name ∉ foldedNames t.columns) :
    KeysDistinct t.primaryKey (withCell t.rows c.name v) := by
  -- The new column is not in the primary key, so the key cells are the old ones.
  have hcell : ∀ row ∈ t.rows, ∀ name ∈ t.primaryKey,
      (row ++ [(c.name, v)] : Row).cell name = row.cell name := by
    intro row hrow name hname
    have hnew : c.name ∉ row.names := by
      rw [t.complete row hrow]
      exact name_not_mem h
    have hne : name ≠ c.name := by
      rintro rfl
      exact name_not_mem h (t.keyed _ hname)
    rw [Row.cell, Row.lookup_append row c.name name v hnew, if_neg hne, Row.cell]
  rw [KeysDistinct, withCell, List.pairwise_map]
  refine t.keysDistinct.imp_of_mem fun hrow hrow' hdistinct => ?_
  rw [Row.sameKey_congr (hcell _ hrow) (hcell _ hrow')]
  exact hdistinct

/-- ALTER TABLE .. ADD COLUMN; the rows take its default. -/
def addColumn (c : Column) (v : SqlValue) (t : FileTable) : Except String FileTable :=
  if h : foldCase c.name ∈ foldedNames t.columns then .error "duplicate column name"
  else .ok {
    columns := t.columns ++ [c]
    primaryKey := t.primaryKey
    rows := withCell t.rows c.name v
    complete := t.complete_withCell c v
    keyed := t.keyed_withCell c
    namesDistinct := t.namesDistinct_withCell c h
    keysDistinct := t.keysDistinct_withCell c v h }

theorem addColumn_eq_ok : t.addColumn c v = .ok t' ↔
    foldCase c.name ∉ foldedNames t.columns ∧ t'.columns = t.columns ++ [c] ∧
      t'.primaryKey = t.primaryKey ∧ t'.rows = withCell t.rows c.name v := by
  unfold addColumn
  split
  · next h => simp [h]
  · next h =>
    rw [Except.ok.injEq]
    constructor
    · rintro rfl
      exact ⟨h, rfl, rfl, rfl⟩
    · rintro ⟨-, hcolumns, hkey, hrows⟩
      exact eq_of_parts hcolumns.symm hkey.symm hrows.symm

end AddColumn

/-! ## Updating Rows -/

section Update

variable {t t' : FileTable} {p : Row → Bool} {name : Bytes} {v : SqlValue}

def updated (p : Row → Bool) (name : Bytes) (v : SqlValue) (rows : List Row) : List Row :=
  rows.map fun row => if p row then row.setCell name v else row

theorem complete_updated (t : FileTable) (p : Row → Bool) (name : Bytes) (v : SqlValue) :
    ∀ row ∈ updated p name v t.rows, row.names = t.columns.map Column.name := by
  intro row hrow
  obtain ⟨row, hmem, rfl⟩ := List.mem_map.mp hrow
  split
  · rw [Row.names_setCell, t.complete row hmem]
  · exact t.complete row hmem

/-- UPDATE .. SET name = v WHERE p. -/
def updateWhere (p : Row → Bool) (name : Bytes) (v : SqlValue) (t : FileTable) :
    Except String FileTable :=
  if h : KeysDistinct t.primaryKey (updated p name v t.rows) then
    .ok {
      columns := t.columns
      primaryKey := t.primaryKey
      rows := updated p name v t.rows
      complete := t.complete_updated p name v
      keyed := t.keyed
      namesDistinct := t.namesDistinct
      keysDistinct := h }
  else .error "UNIQUE constraint failed"

theorem updateWhere_eq_ok : t.updateWhere p name v = .ok t' ↔
    KeysDistinct t.primaryKey (updated p name v t.rows) ∧ t'.columns = t.columns ∧
      t'.primaryKey = t.primaryKey ∧ t'.rows = updated p name v t.rows := by
  unfold updateWhere
  split
  · next h =>
    rw [Except.ok.injEq]
    constructor
    · rintro rfl
      exact ⟨h, rfl, rfl, rfl⟩
    · rintro ⟨-, hcolumns, hkey, hrows⟩
      exact eq_of_parts hcolumns.symm hkey.symm hrows.symm
  · next h => simp [h]

end Update

end FileTable

end EquipmentMonitoring
