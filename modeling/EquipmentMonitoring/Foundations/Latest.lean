import Mathlib.Data.List.Induction
import Mathlib.Order.Bounds.Basic

/-!
# The Latest Stamp

A register that is overwritten with stamps in their order holds the greatest of them. So whether a
stamp lies in a window that ends no earlier than all of them can be read off the register.

## Key Results

- `Latest.overwrite`: later stamps overwrite the register
- `latest_getLast?`: the last of an ascending list
- `Latest.window_iff`: a stamp in the window
-/

namespace EquipmentMonitoring

variable {τ : Type} [LinearOrder τ]

/-- The register is empty without stamps, and holds the greatest of them otherwise. -/
def Latest (stamps : Set τ) : Option τ → Prop
  | none => stamps = ∅
  | some t => IsGreatest stamps t

theorem Latest.mem {stamps : Set τ} {t : τ} (h : Latest stamps (some t)) : t ∈ stamps := h.1

theorem Latest.le {stamps : Set τ} {t s : τ} (h : Latest stamps (some t)) (hs : s ∈ stamps) :
    s ≤ t := h.2 hs

/-- An empty register, or one with a single stamp. -/
theorem latest_option (v : Option τ) : Latest {t | v = some t} v := by
  cases v with
  | none => simp [Latest]
  | some t => simp [Latest, IsGreatest, upperBounds]

/-- Later stamps overwrite the register. -/
theorem Latest.overwrite {earlier later : Set τ} {old new : Option τ} (hold : Latest earlier old)
    (hnew : Latest later new) (hordered : ∀ s ∈ earlier, ∀ t ∈ later, s ≤ t) :
    Latest (earlier ∪ later) (new.or old) := by
  cases new with
  | none =>
    rw [show later = ∅ from hnew, Set.union_empty]
    exact hold
  | some t =>
    refine ⟨.inr hnew.mem, ?_⟩
    rintro s (hs | hs)
    · exact hordered s hs t hnew.mem
    · exact hnew.le hs

/-- The last of an ascending list. -/
theorem latest_getLast? {l : List τ} (h : l.Pairwise (· ≤ ·)) : Latest {t | t ∈ l} l.getLast? := by
  induction l using List.reverseRecOn with
  | nil => simp [Latest]
  | append_singleton l t _ =>
    rw [List.getLast?_concat]
    refine ⟨by simp, fun s hs => ?_⟩
    rcases List.mem_append.mp hs with hs | hs
    · exact (List.pairwise_append.mp h).2.2 s hs t (by simp)
    · exact (List.mem_singleton.mp hs).le

/-- Some stamp is in the window exactly if the latest one is. -/
theorem Latest.window_iff {stamps : Set τ} {v : Option τ} (h : Latest stamps v) {a b : τ}
    (hb : ∀ t ∈ stamps, t ≤ b) :
    (∃ t, v = some t ∧ a ≤ t ∧ t ≤ b) ↔ ∃ t ∈ stamps, a ≤ t ∧ t ≤ b := by
  constructor
  · rintro ⟨t, rfl, hwindow⟩
    exact ⟨t, h.mem, hwindow⟩
  · rintro ⟨s, hs, ha, -⟩
    cases v with
    | none =>
      rw [show stamps = ∅ from h] at hs
      exact absurd hs (Set.notMem_empty s)
    | some t => exact ⟨t, rfl, ha.trans (h.le hs), hb t h.mem⟩

end EquipmentMonitoring
