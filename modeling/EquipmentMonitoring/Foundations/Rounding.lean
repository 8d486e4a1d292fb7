import EquipmentMonitoring.Foundations.Numerals
import Mathlib.Algebra.Order.Field.Power
import Mathlib.Algebra.Order.Field.Rat
import Mathlib.Algebra.Order.Group.Abs
import Mathlib.Algebra.Ring.Int.Parity
import Mathlib.Tactic.FieldSimp
import Mathlib.Tactic.Linarith
import Mathlib.Tactic.NormNum
import Mathlib.Tactic.Positivity

/-!
# Rounding to Integers

A quotient of natural numbers is rounded to the nearest integer, and to the even one of two that are
equally near.

## Key Results

- `RoundsTo.unique`: a number rounds to one integer
- `divRound_roundsTo`: the computed quotient is the rounded one
-/

namespace EquipmentMonitoring

/-- The integer nearest to a number, the even one of two. -/
structure RoundsTo (x : ℚ) (k : ℤ) : Prop where
  nearest : |x - k| ≤ 1 / 2
  even : |x - k| = 1 / 2 → Even k

theorem RoundsTo.neg {x : ℚ} {k : ℤ} (h : RoundsTo x k) : RoundsTo (-x) (-k) := by
  have habs : |-x - ((-k : ℤ) : ℚ)| = |x - k| := by
    rw [Int.cast_neg, ← abs_neg]
    congr 1
    ring
  exact ⟨habs ▸ h.nearest, fun hhalf => (h.even (habs ▸ hhalf)).neg⟩

theorem RoundsTo.unique {x : ℚ} {k l : ℤ} (hk : RoundsTo x k) (hl : RoundsTo x l) : k = l := by
  have hk' := abs_le.mp hk.nearest
  have hl' := abs_le.mp hl.nearest
  have hupper : (k : ℚ) - l ≤ 1 := by linarith
  have hlower : (-1 : ℚ) ≤ k - l := by linarith
  have hupper : k - l ≤ 1 := by exact_mod_cast hupper
  have hlower : -1 ≤ k - l := by exact_mod_cast hlower
  -- neighbours are both nearest in the middle only, and one of them is odd
  rcases lt_trichotomy k l with hlt | heq | hgt
  · have hsucc : (l : ℚ) = k + 1 := by exact_mod_cast (by omega : l = k + 1)
    have hkhalf : |x - k| = 1 / 2 := by rw [abs_of_nonneg] <;> linarith
    have hlhalf : |x - l| = 1 / 2 := by rw [abs_of_nonpos] <;> linarith
    obtain ⟨a, ha⟩ := hk.even hkhalf
    obtain ⟨b, hb⟩ := hl.even hlhalf
    omega
  · exact heq
  · have hsucc : (k : ℚ) = l + 1 := by exact_mod_cast (by omega : k = l + 1)
    have hkhalf : |x - k| = 1 / 2 := by rw [abs_of_nonpos] <;> linarith
    have hlhalf : |x - l| = 1 / 2 := by rw [abs_of_nonneg] <;> linarith
    obtain ⟨a, ha⟩ := hk.even hkhalf
    obtain ⟨b, hb⟩ := hl.even hlhalf
    omega

/-- `n / d`, rounded. -/
def divRound (n d : Nat) : Nat :=
  if 2 * (n % d) < d then n / d
  else if d < 2 * (n % d) then n / d + 1
  else n / d + n / d % 2

theorem divRound_roundsTo {n d : Nat} (hd : 0 < d) : RoundsTo ((n : ℚ) / d) (divRound n d) := by
  have hpos : (0 : ℚ) < d := by exact_mod_cast hd
  have hsplit : ((n : ℚ) / d) = (n / d : Nat) + ((n % d : Nat) : ℚ) / d := by
    have h : (n : ℚ) = d * (n / d : Nat) + (n % d : Nat) := by exact_mod_cast (Nat.div_add_mod n d).symm
    field_simp
    linarith
  have hr : n % d < d := Nat.mod_lt n hd
  have hfrac : (0 : ℚ) ≤ ((n % d : Nat) : ℚ) / d := by positivity
  unfold divRound
  split
  · next hlow =>
    have hhalf : ((n % d : Nat) : ℚ) / d < 1 / 2 := by
      have h : (2 : ℚ) * (n % d : Nat) < d := by exact_mod_cast hlow
      rw [div_lt_div_iff₀ hpos (by norm_num)]
      linarith
    have habs : |(n : ℚ) / d - ((n / d : Nat) : ℤ)| = ((n % d : Nat) : ℚ) / d := by
      rw [hsplit, Int.cast_natCast, add_sub_cancel_left, abs_of_nonneg hfrac]
    exact ⟨habs ▸ hhalf.le, fun h => absurd (habs ▸ h) hhalf.ne⟩
  · next hlow =>
    split
    · next hhigh =>
      have hhalf : 1 / 2 < ((n % d : Nat) : ℚ) / d := by
        have h : (d : ℚ) < 2 * (n % d : Nat) := by exact_mod_cast hhigh
        rw [div_lt_div_iff₀ (by norm_num) hpos]
        linarith
      have hone : ((n % d : Nat) : ℚ) / d < 1 := by
        rw [div_lt_one hpos]
        exact_mod_cast hr
      have habs : |(n : ℚ) / d - ((n / d + 1 : Nat) : ℤ)| = 1 - ((n % d : Nat) : ℚ) / d := by
        rw [hsplit, Int.cast_natCast, Nat.cast_add, Nat.cast_one, abs_of_nonpos (by linarith)]
        ring
      exact ⟨by rw [habs]; linarith, fun h => by rw [habs] at h; linarith⟩
    · next hhigh =>
      have htie : 2 * (n % d) = d := by omega
      have hhalf : ((n % d : Nat) : ℚ) / d = 1 / 2 := by
        have h : (2 : ℚ) * (n % d : Nat) = d := by exact_mod_cast htie
        rw [div_eq_div_iff hpos.ne' (by norm_num)]
        linarith
      have heven : Even ((n / d + n / d % 2 : Nat) : ℤ) :=
        (Int.even_coe_nat _).mpr (Nat.even_iff.mpr (by omega))
      refine ⟨?_, fun _ => heven⟩
      rw [hsplit, hhalf, Int.cast_natCast]
      -- the quotient lies half way between its neighbours
      rcases Nat.mod_two_eq_zero_or_one (n / d) with h | h <;> rw [h]
      · rw [Nat.add_zero, add_sub_cancel_left, abs_of_nonneg (by norm_num)]
      · rw [Nat.cast_add, Nat.cast_one, abs_of_nonpos] <;> linarith

end EquipmentMonitoring
