import EquipmentMonitoring.Foundations.Except
import EquipmentMonitoring.Foundations.Table

/-!
# Objects that are Written Later

A unit of work changes objects in memory and writes them to their table at a later point, each
write being checked against the rows that are there then. Until that point the objects hide the
rows with their keys.

## Key Results

- `find?_upsertAll`: what a lookup through the objects finds
- `writeAll_eq_ok`, `writeAll_ok_of`: writes that pass their checks leave the objects as rows
-/

namespace EquipmentMonitoring

namespace Table

variable {ρ κ ε : Type} {key : ρ → κ} [DecidableEq κ] {t : Table key} {r r' : ρ}

/-! ## Inserting or Replacing -/

/-- UPDATE of the row with the key of `r`, if there is one. -/
def replace (t : Table key) (r : ρ) : Table key :=
  ⟨t.rows.map fun y => if key y = key r then r else y, by
    have hkeys : (t.rows.map fun y => if key y = key r then r else y).map key =
        t.rows.map key := by
      rw [List.map_map]
      refine List.map_congr_left fun y _ => ?_
      by_cases h : key y = key r <;> simp [h]
    rw [hkeys]
    exact t.keys_nodup⟩

/-- The row takes the place of the one with its key, or is added. -/
def upsert (t : Table key) (r : ρ) : Table key := (t.insert r).getD (t.replace r)

theorem upsert_of_fresh (h : ∀ y ∈ t, key y ≠ key r) : (t.upsert r).rows = t.rows ++ [r] := by
  unfold upsert
  cases hi : t.insert r with
  | none =>
    obtain ⟨y, hy, hkey⟩ := insert_eq_none.mp hi
    exact absurd hkey (h y hy)
  | some t' => exact (insert_eq_some.mp hi).2

theorem upsert_of_mem (hr' : r' ∈ t) (hkey : key r' = key r) : t.upsert r = t.replace r := by
  unfold upsert
  rw [insert_eq_none.mpr ⟨r', hr', hkey⟩]
  rfl

theorem mem_replace : r' ∈ t.replace r ↔
    (r' ∈ t ∧ key r' ≠ key r) ∨ (r' = r ∧ ∃ y ∈ t, key y = key r) := by
  simp only [mem_def, replace, List.mem_map]
  constructor
  · rintro ⟨y, hy, rfl⟩
    by_cases h : key y = key r
    · exact .inr ⟨by simp [h], y, hy, h⟩
    · exact .inl (by simpa [h] using hy)
  · rintro (⟨hmem, hne⟩ | ⟨rfl, y, hy, h⟩)
    · exact ⟨r', hmem, by simp [hne]⟩
    · exact ⟨y, hy, by simp [h]⟩

theorem mem_upsert : r' ∈ t.upsert r ↔ r' = r ∨ (r' ∈ t ∧ key r' ≠ key r) := by
  by_cases h : ∃ y ∈ t, key y = key r
  · obtain ⟨y, hy, hkey⟩ := h
    -- the new row stands where the old one of its key stood
    rw [upsert_of_mem hy hkey, mem_replace]
    constructor
    · rintro (hold | ⟨rfl, -⟩)
      · exact .inr hold
      · exact .inl rfl
    · rintro (rfl | hold)
      · exact .inr ⟨rfl, y, hy, hkey⟩
      · exact .inl hold
  · simp only [not_exists, not_and] at h
    rw [mem_def, upsert_of_fresh h, List.mem_append, List.mem_singleton, or_comm]
    exact or_congr_right ⟨fun hmem => ⟨hmem, h r' hmem⟩, fun hmem => hmem.1⟩

theorem find?_upsert {k : κ} :
    (t.upsert r).find? k = if key r = k then some r else t.find? k := by
  split
  · next h => exact find?_eq_some.mpr ⟨mem_upsert.mpr (.inl rfl), h⟩
  · next h =>
    cases hf : t.find? k with
    | none =>
      refine find?_eq_none.mpr fun y hy hkey => ?_
      rcases mem_upsert.mp hy with rfl | ⟨hmem, -⟩
      · exact h hkey
      · exact find?_eq_none.mp hf y hmem hkey
    | some y =>
      obtain ⟨hmem, rfl⟩ := find?_eq_some.mp hf
      exact find?_eq_some.mpr ⟨mem_upsert.mpr (.inr ⟨hmem, fun he => h he.symm⟩), rfl⟩

/-- The later of two writes to one key wins. -/
theorem upsert_upsert (h : key r = key r') : (t.upsert r).upsert r' = t.upsert r' := by
  have hmem : r ∈ t.upsert r := mem_upsert.mpr (.inl rfl)
  rw [upsert_of_mem hmem h]
  by_cases hold : ∃ y ∈ t, key y = key r
  · obtain ⟨y, hy, hkey⟩ := hold
    rw [upsert_of_mem hy hkey, upsert_of_mem hy (hkey.trans h)]
    refine Table.ext ?_
    simp only [replace, List.map_map]
    refine List.map_congr_left fun z _ => ?_
    by_cases hz : key z = key r
    · simp [hz, h]
    · simp [hz, ← h]
  · simp only [not_exists, not_and] at hold
    refine Table.ext ?_
    rw [upsert_of_fresh (h ▸ hold)]
    simp only [replace, upsert_of_fresh hold, List.map_append, List.map_singleton, h, if_true]
    refine congrArg (· ++ [r']) ?_
    rw [List.map_congr_left fun z hz => if_neg (h ▸ hold z hz), List.map_id']

/-! ## Writing Objects -/

/-- The table once the objects are written. -/
def upsertAll (t : Table key) (objects : List ρ) : Table key := objects.foldl upsert t

@[simp] theorem upsertAll_nil : t.upsertAll [] = t := rfl

@[simp] theorem upsertAll_cons {objects : List ρ} :
    t.upsertAll (r :: objects) = (t.upsert r).upsertAll objects := rfl

theorem mem_upsertAll {objects : List ρ} (h : r ∈ t.upsertAll objects) :
    r ∈ t ∨ r ∈ objects := by
  induction objects generalizing t with
  | nil => exact .inl h
  | cons x rest ih =>
    rcases ih h with hmem | hmem
    · rcases mem_upsert.mp hmem with rfl | ⟨hmem, -⟩
      · exact .inr (List.mem_cons_self ..)
      · exact .inl hmem
    · exact .inr (List.mem_cons_of_mem _ hmem)

/-- A lookup finds the object, or else the row. -/
theorem find?_upsertAll {objects : Table key} {k : κ} :
    (t.upsertAll objects.rows).find? k = (objects.find? k).or (t.find? k) := by
  obtain ⟨rows, hnodup⟩ := objects
  induction rows generalizing t with
  | nil => rfl
  | cons x rest ih =>
    rw [List.map_cons, List.nodup_cons] at hnodup
    simp only [upsertAll_cons, ih hnodup.2, find?_upsert]
    simp only [find?, List.find?_cons]
    by_cases h : key x = k
    · -- the objects have distinct keys, so no later one overwrites this row
      have hrest : rest.find? (fun y => decide (key y = k)) = none := by
        simp only [List.find?_eq_none, decide_eq_true_eq]
        exact fun y hy hkey => hnodup.1 (List.mem_map.mpr ⟨y, hy, hkey.trans h.symm⟩)
      simp [h, hrest]
    · simp [h]

/-- Write the objects one by one, each checked against the rows that are there. -/
def writeAll (check : Table key → ρ → Except ε Unit) (t : Table key) (objects : List ρ) :
    Except ε (Table key) :=
  objects.foldlM (fun t x => do
    check t x
    return t.upsert x) t

theorem writeAll_cons {check : Table key → ρ → Except ε Unit} {objects : List ρ} :
    writeAll check t (r :: objects) =
      (check t r >>= fun _ => writeAll check (t.upsert r) objects) := by
  simp only [writeAll, List.foldlM_cons]
  cases check t r <;> rfl

theorem writeAll_eq_ok {check : Table key → ρ → Except ε Unit} {objects : List ρ} {t' : Table key}
    (h : writeAll check t objects = .ok t') : t' = t.upsertAll objects := by
  induction objects generalizing t with
  | nil => exact (Except.ok.inj h).symm
  | cons x rest ih =>
    rw [writeAll_cons] at h
    obtain ⟨_, -, hrest⟩ := except_bind_eq_ok.mp h
    exact ih hrest

/-- Writes succeed when every check does on any mixture of old rows and objects. -/
theorem writeAll_ok_of {check : Table key → ρ → Except ε Unit} {objects : List ρ}
    (h : ∀ x ∈ objects, ∀ u : Table key, (∀ y ∈ u, y ∈ t ∨ y ∈ objects) → check u x = .ok ()) :
    writeAll check t objects = .ok (t.upsertAll objects) := by
  induction objects generalizing t with
  | nil => rfl
  | cons x rest ih =>
    rw [writeAll_cons, h x (List.mem_cons_self ..) t fun y hy => .inl hy]
    -- the row just written is one of the objects, which the later checks may meet
    refine ih fun z hz u hu => h z (List.mem_cons_of_mem _ hz) u fun y hy => ?_
    rcases hu y hy with hmem | hmem
    · rcases mem_upsert.mp hmem with rfl | ⟨hmem, -⟩
      · exact .inr (List.mem_cons_self ..)
      · exact .inl hmem
    · exact .inr (List.mem_cons_of_mem _ hmem)

end Table

end EquipmentMonitoring
