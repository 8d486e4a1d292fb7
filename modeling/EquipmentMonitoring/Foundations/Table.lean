import Mathlib.Data.List.Nodup

/-!
# Tables with a Primary Key

A table is a list of rows whose keys are distinct, so a state that violates the primary key cannot
be built. The operations are those of SQL statements: an insertion can fail on its key, updates
and deletions act on the rows that satisfy a condition and report how many those are.

## Key Results

- `eq_of_key_eq`: a key determines its row
- `mem_insert`, `mem_update`, `mem_delete`: the rows after a statement
- `count_eq_one_iff`: a condition that fixes the key selects one row or none
-/

namespace EquipmentMonitoring

structure Table {ρ κ : Type} (key : ρ → κ) where
  rows : List ρ
  keys_nodup : (rows.map key).Nodup

namespace Table

variable {ρ κ : Type} {key : ρ → κ}

@[ext] theorem ext {t t' : Table key} (h : t.rows = t'.rows) : t = t' := by
  cases t; cases t'; simp_all

instance : Membership ρ (Table key) := ⟨fun t r => r ∈ t.rows⟩

theorem mem_def {t : Table key} {r : ρ} : r ∈ t ↔ r ∈ t.rows := Iff.rfl

def empty : Table key := ⟨[], List.nodup_nil⟩

@[simp] theorem not_mem_empty (r : ρ) : r ∉ (empty : Table key) := List.not_mem_nil

/-- A key determines its row. -/
theorem eq_of_key_eq {t : Table key} {r r' : ρ} (hr : r ∈ t) (hr' : r' ∈ t)
    (h : key r = key r') : r = r' :=
  List.inj_on_of_nodup_map t.keys_nodup hr hr' h

/-! ## Conditional Statements -/

section Conditional

variable {t : Table key} {r r' : ρ} {p : ρ → Bool}

/-- UPDATE WHERE, leaving the key alone. -/
def update (t : Table key) (p : ρ → Bool) (f : ρ → ρ) (hf : ∀ r, key (f r) = key r) :
    Table key :=
  ⟨t.rows.map fun r => if p r then f r else r, by
    have hkeys : (t.rows.map fun r => if p r then f r else r).map key = t.rows.map key := by
      rw [List.map_map]
      refine List.map_congr_left fun r _ => ?_
      by_cases hp : p r <;> simp [hp, hf]
    rw [hkeys]
    exact t.keys_nodup⟩

/-- DELETE WHERE. -/
def delete (t : Table key) (p : ρ → Bool) : Table key :=
  ⟨t.rows.filter fun r => !p r, (t.keys_nodup.sublist (List.filter_sublist.map key))⟩

/-- The number of rows a condition selects. -/
def count (t : Table key) (p : ρ → Bool) : Nat := t.rows.countP p

theorem mem_update {f : ρ → ρ} {hf : ∀ r, key (f r) = key r} :
    r' ∈ t.update p f hf ↔ ∃ r ∈ t, (if p r then f r else r) = r' := by
  simp [update, mem_def]

theorem mem_delete : r ∈ t.delete p ↔ r ∈ t ∧ p r = false := by
  simp [delete, mem_def]

/-- A condition that fixes the key selects one row or none. -/
theorem count_eq_one_iff {k : κ} (hp : ∀ r, p r = true → key r = k) :
    t.count p = 1 ↔ ∃ r ∈ t, p r = true := by
  constructor
  · intro h
    exact List.countP_pos_iff.mp (show 0 < t.rows.countP p by rw [count] at h; omega)
  · rintro ⟨r, hr, hpr⟩
    have hpos : 0 < t.rows.countP p := List.countP_pos_iff.mpr ⟨r, hr, hpr⟩
    have hnodup : ((t.rows.filter p).map key).Nodup :=
      t.keys_nodup.sublist (List.filter_sublist.map key)
    rw [count, List.countP_eq_length_filter] at *
    rcases hl : t.rows.filter p with _ | ⟨a, _ | ⟨b, rest⟩⟩
    · simp [hl] at hpos
    · rfl
    · -- two selected rows would share their key
      have ha := (List.mem_filter.mp (hl ▸ List.mem_cons_self .. : a ∈ t.rows.filter p)).2
      have hb := (List.mem_filter.mp (hl ▸ by simp : b ∈ t.rows.filter p)).2
      simp [hl, hp a ha, hp b hb] at hnodup

/-- An UPDATE that selects no row. -/
theorem update_of_none {f : ρ → ρ} {hf : ∀ r, key (f r) = key r} (h : ∀ r ∈ t, p r = false) :
    t.update p f hf = t := by
  refine Table.ext ((List.map_congr_left fun r hr => ?_).trans (List.map_id _))
  rw [h r hr]
  rfl

theorem count_eq_zero_iff : t.count p = 0 ↔ ∀ r ∈ t, p r = false := by
  simp [count, List.countP_eq_zero, mem_def]

end Conditional

/-! ## Statements by Key -/

section ByKey

variable [DecidableEq κ] {t t' : Table key} {r r' : ρ}

/-- SELECT by primary key. -/
def find? (t : Table key) (k : κ) : Option ρ := t.rows.find? fun r => decide (key r = k)

/-- INSERT; none when the key is taken. -/
def insert (t : Table key) (r : ρ) : Option (Table key) :=
  if h : key r ∈ t.rows.map key then none
  else some ⟨t.rows ++ [r], by
    rw [List.map_append, List.map_singleton, List.nodup_append]
    refine ⟨t.keys_nodup, List.nodup_singleton _, fun k hk k' hk' => ?_⟩
    rw [List.mem_singleton.mp hk']
    rintro rfl
    exact h hk⟩

theorem find?_eq_some {k : κ} : t.find? k = some r ↔ r ∈ t ∧ key r = k := by
  constructor
  · intro h
    exact ⟨List.mem_of_find?_eq_some h, by simpa using List.find?_some h⟩
  · rintro ⟨hr, hk⟩
    cases h : t.find? k with
    | none =>
      have := List.find?_eq_none.mp h r hr
      simp [hk] at this
    | some r' =>
      have hr' : r' ∈ t := List.mem_of_find?_eq_some h
      have hk' : key r' = k := by simpa using List.find?_some h
      -- a key has one row, so the row found is the one asked for
      rw [eq_of_key_eq hr' hr (hk'.trans hk.symm)]

theorem find?_eq_none {k : κ} : t.find? k = none ↔ ∀ r ∈ t, key r ≠ k := by
  simp [find?, List.find?_eq_none, mem_def]

theorem insert_eq_none : t.insert r = none ↔ ∃ r' ∈ t, key r' = key r := by
  unfold insert
  split
  · next h => simpa [mem_def] using h
  · next h => simpa [mem_def] using h

theorem insert_eq_some :
    t.insert r = some t' ↔ (∀ r' ∈ t, key r' ≠ key r) ∧ t'.rows = t.rows ++ [r] := by
  unfold insert
  split
  · next h =>
    obtain ⟨r', hr', hk⟩ := List.mem_map.mp h
    simp only [reduceCtorEq, false_iff, not_and]
    intro hne
    exact absurd hk (hne r' hr')
  · next h =>
    rw [Option.some.injEq, Table.ext_iff, eq_comm (a := t.rows ++ [r])]
    refine (and_iff_right ?_).symm
    exact fun r' hr' hk => h (List.mem_map.mpr ⟨r', hr', hk⟩)

theorem mem_insert (h : t.insert r = some t') : r' ∈ t' ↔ r' ∈ t ∨ r' = r := by
  rw [mem_def, (insert_eq_some.mp h).2]
  simp [mem_def]

/-- An update leaves keys alone, so a lookup finds the updated row. -/
theorem find?_update {p : ρ → Bool} {f : ρ → ρ} {hf : ∀ r, key (f r) = key r} {k : κ} :
    (t.update p f hf).find? k = (t.find? k).map fun r => if p r then f r else r := by
  have hkey : ∀ r, key (if p r then f r else r) = key r := fun r => by
    split
    · exact hf r
    · rfl
  simp only [find?, update, List.find?_map, Function.comp_def, hkey]

end ByKey

end Table

end EquipmentMonitoring
