import Mathlib.Data.List.Basic
import Mathlib.Data.List.Range

/-!
# Generators

A generator is a step on a state that yields an element and goes on, or has ended. What is left to
yield is bounded by a measure that every step makes smaller. Its elements can be taken all at once,
or in slices from one state to the next.

## Key Results

- `toList_islice`: a slice and what is left make up what there was
- `flatten_chunks`, `ne_nil_of_mem_chunks`, `length_of_mem_dropLast`: slice after slice
- `toList_orbit`: the elements of a generator whose states are known in advance
-/

namespace EquipmentMonitoring

/-- A step, and a bound on how many are left. -/
structure Generator (σ α : Type*) where
  next : σ → Option (α × σ)
  size : σ → Nat
  size_lt : ∀ {s s' : σ} {a : α}, next s = some (a, s') → size s' < size s

namespace Generator

variable {σ α : Type*} (g : Generator σ α)

/-- At most `n` elements, and the state they leave. -/
def islice : Nat → σ → List α × σ
  | 0, s => ([], s)
  | n + 1, s =>
    match g.next s with
    | none => ([], s)
    | some (a, s') => (a :: (islice n s').1, (islice n s').2)

/-- All elements. -/
def toList (s : σ) : List α := (g.islice (g.size s) s).1

/-- Slices of `n` elements, until one is empty. -/
def chunksFrom (n : Nat) : Nat → σ → List (List α)
  | 0, _ => []
  | fuel + 1, s =>
    match g.islice n s with
    | ([], _) => []
    | (a :: rest, s') => (a :: rest) :: chunksFrom n fuel s'

/-- The last, empty slice is taken too, so there are at most as many as elements and one. -/
def chunks (n : Nat) (s : σ) : List (List α) := g.chunksFrom n (g.size s + 1) s

variable {g} {n fuel : Nat} {s s' : σ} {a : α}

/-! ## Elements -/

theorem islice_of_none (h : g.next s = none) (n : Nat) : g.islice n s = ([], s) := by
  cases n with
  | zero => rfl
  | succ n => rw [islice, h]

theorem islice_of_some (h : g.next s = some (a, s')) (n : Nat) :
    g.islice (n + 1) s = (a :: (g.islice n s').1, (g.islice n s').2) := by
  rw [islice, h]

/-- A slice of the size of the state holds everything. -/
theorem islice_of_size_le (hn : g.size s ≤ n) : (g.islice n s).1 = g.toList s := by
  rw [toList]
  -- The fuel is set free of the size, so that both can shrink by one.
  generalize hm : g.size s = m
  have hle : g.size s ≤ m := hm.le
  clear hm
  induction n generalizing m s with
  | zero =>
    have hnone : g.next s = none := by
      cases h : g.next s with
      | none => rfl
      | some p =>
        have hlt := g.size_lt h
        omega
    rw [islice_of_none hnone, islice_of_none hnone]
  | succ n ih =>
    cases h : g.next s with
    | none => rw [islice_of_none h, islice_of_none h]
    | some p =>
      obtain ⟨a, s'⟩ := p
      have hlt := g.size_lt h
      obtain ⟨m, rfl⟩ : ∃ k, m = k + 1 := ⟨m - 1, by omega⟩
      rw [islice_of_some h, islice_of_some h, ih (by omega) m (by omega)]

theorem toList_of_none (h : g.next s = none) : g.toList s = [] := by
  rw [toList, islice_of_none h]

theorem toList_of_some (h : g.next s = some (a, s')) : g.toList s = a :: g.toList s' := by
  have hlt := g.size_lt h
  rw [← islice_of_size_le (Nat.le_succ (g.size s)), islice_of_some h, islice_of_size_le (by omega)]

/-- A slice and what is left make up what there was. -/
theorem toList_islice (n : Nat) (s : σ) :
    (g.islice n s).1 ++ g.toList (g.islice n s).2 = g.toList s := by
  induction n generalizing s with
  | zero => rfl
  | succ n ih =>
    cases h : g.next s with
    | none => rw [islice_of_none h, List.nil_append]
    | some p =>
      rw [islice_of_some h, List.cons_append, ih, ← toList_of_some h]

theorem length_islice_le (n : Nat) (s : σ) : (g.islice n s).1.length ≤ n := by
  induction n generalizing s with
  | zero => exact Nat.le_refl 0
  | succ n ih =>
    cases h : g.next s with
    | none => rw [islice_of_none h]; exact Nat.zero_le _
    | some p =>
      rw [islice_of_some h, List.length_cons]
      exact Nat.succ_le_succ (ih _)

/-- After a slice that is not full, nothing is left. -/
theorem toList_of_short (h : (g.islice n s).1.length < n) : g.toList (g.islice n s).2 = [] := by
  induction n generalizing s with
  | zero => exact absurd h (Nat.not_lt_zero _)
  | succ n ih =>
    cases hnext : g.next s with
    | none =>
      rw [islice_of_none hnext]
      exact toList_of_none hnext
    | some p =>
      rw [islice_of_some hnext] at h ⊢
      exact ih (Nat.lt_of_succ_lt_succ h)

theorem size_islice (n : Nat) (s : σ) :
    g.size (g.islice n s).2 + (g.islice n s).1.length ≤ g.size s := by
  induction n generalizing s with
  | zero => exact Nat.le_refl _
  | succ n ih =>
    cases h : g.next s with
    | none => rw [islice_of_none h]; exact Nat.le_refl _
    | some p =>
      -- Every element that is taken makes the rest smaller.
      have hlt := g.size_lt h
      have hrest := ih p.2
      rw [islice_of_some h]
      simp only [List.length_cons]
      omega

/-! ## Slice after Slice -/

theorem chunksFrom_of_nil (h : (g.islice n s).1 = []) (fuel : Nat) : g.chunksFrom n fuel s = [] := by
  cases fuel with
  | zero => rfl
  | succ fuel =>
    rw [chunksFrom]
    split
    · rfl
    · next hslice =>
      rw [hslice] at h
      simp at h

theorem chunksFrom_of_ne_nil (h : (g.islice n s).1 ≠ []) (fuel : Nat) :
    g.chunksFrom n (fuel + 1) s = (g.islice n s).1 :: g.chunksFrom n fuel (g.islice n s).2 := by
  rw [chunksFrom]
  split
  · next hslice =>
    rw [hslice] at h
    exact absurd rfl h
  · next hslice => rw [hslice]

theorem flatten_chunksFrom (hn : 0 < n) (hfuel : g.size s < fuel) :
    (g.chunksFrom n fuel s).flatten = g.toList s := by
  induction fuel generalizing s with
  | zero => exact absurd hfuel (Nat.not_lt_zero _)
  | succ fuel ih =>
    by_cases hslice : (g.islice n s).1 = []
    · -- an empty slice means that nothing was left
      have hrest : g.toList (g.islice n s).2 = [] := toList_of_short (by rw [hslice]; exact hn)
      rw [chunksFrom_of_nil hslice, ← toList_islice n s, hslice, hrest]
      rfl
    · have hlength : 0 < (g.islice n s).1.length := List.length_pos_iff.mpr hslice
      -- A slice that is not empty uses up fuel's worth of elements, one at least.
      have hsize := size_islice (g := g) n s
      rw [chunksFrom_of_ne_nil hslice, List.flatten_cons, ih (by omega), toList_islice]

/-- The slices put together are the elements. -/
theorem flatten_chunks (hn : 0 < n) (s : σ) : (g.chunks n s).flatten = g.toList s :=
  flatten_chunksFrom hn (Nat.lt_succ_self _)

theorem ne_nil_of_mem_chunksFrom {chunk : List α} (h : chunk ∈ g.chunksFrom n fuel s) :
    chunk ≠ [] := by
  induction fuel generalizing s with
  | zero => simp [chunksFrom] at h
  | succ fuel ih =>
    by_cases hslice : (g.islice n s).1 = []
    · rw [chunksFrom_of_nil hslice] at h
      simp at h
    · rw [chunksFrom_of_ne_nil hslice] at h
      rcases List.mem_cons.mp h with rfl | h
      · exact hslice
      · exact ih h

theorem ne_nil_of_mem_chunks {chunk : List α} (h : chunk ∈ g.chunks n s) : chunk ≠ [] :=
  ne_nil_of_mem_chunksFrom h

theorem length_of_mem_dropLast_from {chunk : List α} (h : chunk ∈ (g.chunksFrom n fuel s).dropLast) :
    chunk.length = n := by
  induction fuel generalizing s with
  | zero => simp [chunksFrom] at h
  | succ fuel ih =>
    by_cases hslice : (g.islice n s).1 = []
    · rw [chunksFrom_of_nil hslice] at h
      simp at h
    · rw [chunksFrom_of_ne_nil hslice] at h
      by_cases hrest : g.chunksFrom n fuel (g.islice n s).2 = []
      · rw [hrest] at h
        simp at h
      · rw [List.dropLast_cons_of_ne_nil hrest] at h
        rcases List.mem_cons.mp h with rfl | h
        · -- a slice that is not full leaves nothing for another
          by_contra hshort
          have hle := length_islice_le (g := g) n s
          have hnone := toList_of_short (g := g) (n := n) (s := s) (by omega)
          have hempty := toList_islice (g := g) n (g.islice n s).2
          rw [hnone, List.append_eq_nil_iff] at hempty
          exact hrest (chunksFrom_of_nil hempty.1 fuel)
        · exact ih h

/-- Every slice but the last is full. -/
theorem length_of_mem_dropLast {chunk : List α} (h : chunk ∈ (g.chunks n s).dropLast) :
    chunk.length = n :=
  length_of_mem_dropLast_from h

/-! ## Known States -/

/-- The elements of a generator whose states are known in advance. -/
theorem toList_orbit {states : Nat → σ} {elements : Nat → α} {count : Nat}
    (hnext : ∀ i < count, g.next (states i) = some (elements i, states (i + 1)))
    (hend : g.next (states count) = none) :
    g.toList (states 0) = (List.range count).map elements := by
  -- From any state on the orbit, what is left of it is produced.
  have hfrom (left : Nat) (i : Nat) (hi : i + left = count) :
      g.toList (states i) = (List.range' i left).map elements := by
    induction left generalizing i with
    | zero =>
      obtain rfl : i = count := by omega
      exact toList_of_none hend
    | succ left ih =>
      rw [toList_of_some (hnext i (by omega)), ih (i + 1) (by omega)]
      rfl
  rw [hfrom count 0 (Nat.zero_add _), List.range_eq_range']

end Generator

end EquipmentMonitoring
