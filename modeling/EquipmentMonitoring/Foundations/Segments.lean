import Mathlib.Data.List.Chain

/-!
# Cutting a List into Segments

A list is cut before each element that starts a segment. It is read from the left, and the last
segment grows.

## Key Results

- `segmentsBy_flatten`: the segments concatenate to the list
- `segmentsBy_chain`: inside of a segment no element starts one
- `segmentsBy_map`: segments of images are images of segments
- `withPrevious_isChain`: a list, with what comes before each element
- `adjacent_of_sorted`, `between_of_adjacent`: what is adjacent in a strictly sorted list
-/

namespace EquipmentMonitoring

variable {α β : Type}

/-! ## Segments -/

/-- Put an element at the end of the last segment, or into one of its own. -/
def addToSegments (starts : Bool) (segments : List (List α)) (x : α) : List (List α) :=
  if starts || segments.isEmpty then segments ++ [[x]]
  else segments.dropLast ++ [segments.getLast?.getD [] ++ [x]]

def segmentsBy (starts : α → Bool) (xs : List α) : List (List α) :=
  xs.foldl (fun segments x => addToSegments (starts x) segments x) []

/-- The last segment grows, or a new one begins. -/
theorem addToSegments_cases (starts : Bool) (segments : List (List α)) (x : α) :
    addToSegments starts segments x = segments ++ [[x]] ∨
      starts = false ∧ ∃ before last, segments = before ++ [last] ∧
        addToSegments starts segments x = before ++ [last ++ [x]] := by
  unfold addToSegments
  split
  · exact .inl rfl
  · next h =>
    rw [Bool.or_eq_true, not_or, Bool.not_eq_true, List.isEmpty_iff] at h
    -- the element joins the last segment, which is there
    obtain ⟨hstarts, hne⟩ := h
    refine .inr ⟨hstarts, segments.dropLast, segments.getLast hne,
      (List.dropLast_append_getLast hne).symm, ?_⟩
    rw [List.getLast?_eq_some_getLast hne]
    rfl

theorem segmentsBy_append (starts : α → Bool) (xs : List α) (x : α) :
    segmentsBy starts (xs ++ [x]) = addToSegments (starts x) (segmentsBy starts xs) x := by
  simp [segmentsBy]

theorem segmentsBy_flatten (starts : α → Bool) (xs : List α) :
    (segmentsBy starts xs).flatten = xs := by
  induction xs using List.reverseRecOn with
  | nil => rfl
  | append_singleton xs x ih =>
    rw [segmentsBy_append]
    rcases addToSegments_cases (starts x) (segmentsBy starts xs) x with h | ⟨-, before, last, hs, h⟩
    · rw [h, List.flatten_append, ih]
      simp
    · rw [hs, List.flatten_append, List.flatten_singleton] at ih
      rw [h, List.flatten_append, List.flatten_singleton, ← List.append_assoc, ih]

/-- No segment is empty, and inside of a segment no element starts one. -/
theorem segmentsBy_chain (starts : α → Bool) (xs : List α) :
    ∀ segment ∈ segmentsBy starts xs, segment ≠ [] ∧
      segment.IsChain fun _ b => starts b = false := by
  induction xs using List.reverseRecOn with
  | nil => simp [segmentsBy]
  | append_singleton xs x ih =>
    rw [segmentsBy_append]
    rcases addToSegments_cases (starts x) (segmentsBy starts xs) x with
      h | ⟨hstarts, before, last, hs, h⟩
    · rw [h]
      intro segment hsegment
      rcases List.mem_append.mp hsegment with hold | hnew
      · exact ih segment hold
      · rw [List.mem_singleton.mp hnew]
        exact ⟨List.cons_ne_nil _ _, List.isChain_singleton _⟩
    · rw [h]
      rw [hs] at ih
      intro segment hsegment
      rcases List.mem_append.mp hsegment with hold | hnew
      · exact ih segment (List.mem_append_left _ hold)
      · obtain ⟨-, hchain⟩ := ih last (List.mem_append_right _ (List.mem_singleton.mpr rfl))
        rw [List.mem_singleton.mp hnew]
        refine ⟨List.append_ne_nil_of_right_ne_nil _ (List.cons_ne_nil _ _), ?_⟩
        -- only the seam is new, and the added element does not start a segment
        refine List.isChain_append.mpr ⟨hchain, List.isChain_singleton _, fun y _ z hz => ?_⟩
        obtain rfl : x = z := by simpa using hz
        exact hstarts

theorem addToSegments_map (g : α → β) (starts : Bool) (segments : List (List α)) (x : α) :
    addToSegments starts (segments.map (List.map g)) (g x) =
      (addToSegments starts segments x).map (List.map g) := by
  unfold addToSegments
  rw [List.isEmpty_map]
  split
  · simp
  · simp only [List.map_append, List.map_dropLast, List.getLast?_map, List.map_cons, List.map_nil]
    cases segments.getLast? <;> simp

theorem segmentsBy_map (starts : β → Bool) (g : α → β) (xs : List α) :
    segmentsBy starts (xs.map g) = (segmentsBy (fun x => starts (g x)) xs).map (List.map g) := by
  induction xs using List.reverseRecOn with
  | nil => rfl
  | append_singleton xs x ih =>
    rw [List.map_append, List.map_singleton, segmentsBy_append, ih, addToSegments_map,
      segmentsBy_append]

/-- What holds between neighbours of the list holds between neighbours of a segment. -/
theorem segmentsBy_isChain {R : α → α → Prop} {starts : α → Bool} {xs : List α}
    (h : xs.IsChain R) {segment : List α} (hsegment : segment ∈ segmentsBy starts xs) :
    segment.IsChain R := by
  refine h.infix ?_
  rw [← segmentsBy_flatten starts xs]
  exact List.infix_of_mem_flatten hsegment

theorem isChain_and {R S : α → α → Prop} {xs : List α} (hR : xs.IsChain R) (hS : xs.IsChain S) :
    xs.IsChain fun a b => R a b ∧ S a b := by
  rw [List.isChain_iff_getElem] at *
  exact fun i hi => ⟨hR i hi, hS i hi⟩

/-! ## Elements with their Predecessors -/

/-- Each element with the one before it. -/
def withPrevious : Option α → List α → List (Option α × α)
  | _, [] => []
  | previous, x :: rest => (previous, x) :: withPrevious (some x) rest

@[simp] theorem map_snd_withPrevious (previous : Option α) (xs : List α) :
    (withPrevious previous xs).map Prod.snd = xs := by
  induction xs generalizing previous with
  | nil => rfl
  | cons x rest ih => rw [withPrevious, List.map_cons, ih]

theorem withPrevious_isChain (previous : Option α) (xs : List α) :
    (withPrevious previous xs).IsChain fun s s' => s'.1 = some s.2 := by
  induction xs generalizing previous with
  | nil => exact List.isChain_nil
  | cons x rest ih =>
    cases rest with
    | nil => exact List.isChain_singleton _
    | cons y rest => exact List.isChain_cons_cons.mpr ⟨rfl, ih (some x)⟩

theorem withPrevious_getElem? (previous : Option α) (xs : List α) (k : Nat) :
    (withPrevious previous xs)[k]? =
      xs[k]?.map fun x => (if k = 0 then previous else xs[k - 1]?, x) := by
  induction xs generalizing previous k with
  | nil => rfl
  | cons x rest ih =>
    cases k with
    | zero => rfl
    | succ k =>
      rw [withPrevious, List.getElem?_cons_succ, ih, List.getElem?_cons_succ]
      cases k with
      | zero => rfl
      | succ k => rfl

/-! ## Neighbours in a Sorted List -/

section Sorted

variable {R : α → α → Prop} (htrans : ∀ a b c, R a b → R b c → R a c) (hirrefl : ∀ a, ¬ R a a)

include htrans hirrefl

/-- Two elements of a strictly sorted list are neighbours when nothing of it lies between. -/
theorem adjacent_of_sorted {xs : List α} (hsorted : xs.Pairwise R) {q r : α} {i j : Nat}
    (hq : xs[i]? = some q) (hr : xs[j]? = some r) (hqr : R q r)
    (hbetween : ∀ x ∈ xs, ¬ (R q x ∧ R x r)) : j = i + 1 := by
  obtain ⟨hi, rfl⟩ := List.getElem?_eq_some_iff.mp hq
  obtain ⟨hj, rfl⟩ := List.getElem?_eq_some_iff.mp hr
  rw [List.pairwise_iff_getElem] at hsorted
  have hlt : i < j := by
    by_contra hle
    rcases Nat.lt_or_eq_of_le (Nat.le_of_not_lt hle) with hgt | heq
    · exact hirrefl _ (htrans _ _ _ hqr (hsorted j i hj hi hgt))
    · subst heq
      exact hirrefl _ hqr
  by_contra hne
  -- the element after the first would lie between
  have hmiddle : i + 1 < xs.length := by omega
  exact hbetween _ (List.getElem_mem hmiddle)
    ⟨hsorted i (i + 1) hi hmiddle (by omega), hsorted (i + 1) j hmiddle hj (by omega)⟩

/-- And nothing lies between neighbours. -/
theorem between_of_adjacent {xs : List α} (hsorted : xs.Pairwise R) {q r x : α} {i : Nat}
    (hq : xs[i]? = some q) (hr : xs[i + 1]? = some r) (hx : x ∈ xs) : ¬ (R q x ∧ R x r) := by
  obtain ⟨hi, rfl⟩ := List.getElem?_eq_some_iff.mp hq
  obtain ⟨hj, rfl⟩ := List.getElem?_eq_some_iff.mp hr
  obtain ⟨k, hk, rfl⟩ := List.getElem_of_mem hx
  rw [List.pairwise_iff_getElem] at hsorted
  rintro ⟨hqx, hxr⟩
  -- an element between two neighbours would have an index between theirs
  rcases Nat.lt_trichotomy k i with hlt | rfl | hgt
  · exact hirrefl _ (htrans _ _ _ hqx (hsorted k i hk hi hlt))
  · exact hirrefl _ hqx
  · rcases Nat.lt_or_ge (i + 1) k with hlt | hge
    · exact hirrefl _ (htrans _ _ _ hxr (hsorted (i + 1) k hj hk hlt))
    · obtain rfl : k = i + 1 := by omega
      exact hirrefl _ hxr

end Sorted

end EquipmentMonitoring
