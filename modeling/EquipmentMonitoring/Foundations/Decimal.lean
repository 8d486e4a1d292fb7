import EquipmentMonitoring.Foundations.Json.Syntax
import Mathlib.Algebra.Order.Field.Rat
import Mathlib.Algebra.Order.Field.Power
import Mathlib.Data.Nat.Log
import Mathlib.Tactic.Positivity
import Mathlib.Tactic.NormNum
import Mathlib.Tactic.FieldSimp
import Mathlib.Tactic.Linarith

/-!
# Scaled Decimal Numbers

A decimal number is `± coefficient * 10 ^ exponent`. Exponents are unbounded, so comparisons must
not compute the power they name: a power of ten that already exceeds the other side decides the
comparison, and `scale` caps it there.

## Key Results

- `compareNat_eq`: the capped comparison is the comparison of rationals
- `Decimal.compareInt_eq`: the same with signs
-/

namespace EquipmentMonitoring

/-- `10 ^ k`, or a power of ten above `bound` when that is smaller. -/
def scale (k bound : Nat) : Nat := 10 ^ min k (bound.log2 + 1)

theorem lt_ten_pow_log2 (n : Nat) : n < 10 ^ (n.log2 + 1) :=
  calc n < 2 ^ (n.log2 + 1) := Nat.lt_log2_self
    _ ≤ 10 ^ (n.log2 + 1) := Nat.pow_le_pow_left (by decide) _

/-- The cap does not change how a positive multiple of the power compares. -/
theorem compare_mul_scale {c : Nat} (hc : 0 < c) (k bound : Nat) :
    compare (c * scale k bound) bound = compare (c * 10 ^ k) bound := by
  unfold scale
  by_cases hk : k ≤ bound.log2 + 1
  · rw [min_eq_left hk]
  · have hcap : bound < c * 10 ^ (bound.log2 + 1) :=
      (lt_ten_pow_log2 bound).trans_le (Nat.le_mul_of_pos_left _ hc)
    have hpow : c * 10 ^ (bound.log2 + 1) ≤ c * 10 ^ k :=
      Nat.mul_le_mul_left c (Nat.pow_le_pow_right (by decide) (by omega))
    rw [min_eq_right (by omega), compare_gt_iff_gt.mpr hcap,
      compare_gt_iff_gt.mpr (hcap.trans_le hpow)]

/-- Compare `c * 10 ^ e` with `bound`. -/
def compareNat (c : Nat) (e : Int) (bound : Nat) : Ordering :=
  if 0 ≤ e then compare (c * scale e.toNat bound) bound
  else compare c (bound * scale (-e).toNat c)

theorem compare_natCast (a b : Nat) : compare (a : ℚ) b = compare a b := by
  rw [← cmp_eq_compare, ← cmp_eq_compare]
  exact Nat.strictMono_cast.cmp_map_eq a b

theorem compare_mul_pos {a b c : ℚ} (hc : 0 < c) : compare (a * c) (b * c) = compare a b := by
  rw [← cmp_eq_compare, ← cmp_eq_compare]
  exact (strictMono_mul_right_of_pos hc).cmp_map_eq a b

theorem compare_neg_neg (a b : ℚ) : compare (-a) (-b) = compare b a := by
  rw [← cmp_eq_compare, ← cmp_eq_compare]
  have hanti : StrictAnti fun x : ℚ => -x := fun _ _ h => neg_lt_neg h
  exact hanti.cmp_map_eq a b

theorem compareNat_eq (c : Nat) (e : Int) (bound : Nat) :
    compareNat c e bound = compare ((c : ℚ) * 10 ^ e) bound := by
  unfold compareNat
  split
  · next he =>
    -- The coefficient is scaled up, and both sides are integers.
    obtain ⟨k, rfl⟩ := Int.eq_ofNat_of_zero_le he
    have hvalue : (c : ℚ) * 10 ^ (k : Int) = ((c * 10 ^ k : Nat) : ℚ) := by simp
    rw [Int.toNat_natCast, hvalue, compare_natCast]
    rcases Nat.eq_zero_or_pos c with rfl | hc
    · simp
    · exact compare_mul_scale hc k bound
  · next he =>
    obtain ⟨k, hk⟩ := Int.eq_ofNat_of_zero_le (show 0 ≤ -e by omega)
    obtain rfl : e = -(k : Int) := by omega
    -- A negative exponent scales the bound instead, and the comparison turns around.
    have hpow : (0 : ℚ) < 10 ^ k := by positivity
    have hvalue : (c : ℚ) * 10 ^ (-(k : Int)) * 10 ^ k = (c : ℚ) := by
      rw [zpow_neg, zpow_natCast]
      field_simp
    have hbound : ((bound : ℚ) * 10 ^ k) = ((bound * 10 ^ k : Nat) : ℚ) := by simp
    rw [← compare_mul_pos hpow, hvalue, hbound, compare_natCast, neg_neg, Int.toNat_natCast,
      ← Ordering.swap_inj, Nat.compare_swap, Nat.compare_swap]
    rcases Nat.eq_zero_or_pos bound with rfl | hb
    · simp
    · exact compare_mul_scale hb k c

/-! ## Signed Numbers -/

/-- `± coefficient * 10 ^ exponent`. -/
structure Decimal where
  negative : Bool
  coefficient : Nat
  exponent : Int
deriving DecidableEq

namespace Decimal

/-- The number denoted. -/
def toRat (d : Decimal) : ℚ :=
  (if d.negative then -1 else 1) * (d.coefficient * 10 ^ d.exponent)

/-- Compare the number with an integer. -/
def compareInt (d : Decimal) (bound : Int) : Ordering :=
  if d.negative then
    if 0 < bound then .lt else (compareNat d.coefficient d.exponent (-bound).toNat).swap
  else if bound < 0 then .gt
  else compareNat d.coefficient d.exponent bound.toNat

theorem magnitude_nonneg (d : Decimal) : (0 : ℚ) ≤ d.coefficient * 10 ^ d.exponent := by
  positivity

theorem compareInt_eq (d : Decimal) (bound : Int) :
    d.compareInt bound = compare d.toRat bound := by
  have hmag := d.magnitude_nonneg
  unfold compareInt toRat
  split
  · next hneg =>
    split
    · next hb =>
      -- the signs differ, and no digit is looked at
      have : (0 : ℚ) < bound := by exact_mod_cast hb
      exact (compare_lt_iff_lt.mpr (by linarith)).symm
    · next hb =>
      obtain ⟨k, hk⟩ := Int.eq_ofNat_of_zero_le (show 0 ≤ -bound by omega)
      obtain rfl : bound = -(k : Int) := by omega
      rw [neg_neg, Int.toNat_natCast, compareNat_eq, ← cmp_eq_compare, cmp_swap,
        cmp_eq_compare]
      have h := compare_neg_neg (d.coefficient * 10 ^ d.exponent) (k : ℚ)
      simpa using h.symm
  · next hneg =>
    split
    · next hb =>
      have : (bound : ℚ) < 0 := by exact_mod_cast hb
      exact (compare_gt_iff_gt.mpr (by linarith)).symm
    · next hb =>
      obtain ⟨k, rfl⟩ := Int.eq_ofNat_of_zero_le (show 0 ≤ bound by omega)
      rw [Int.toNat_natCast, compareNat_eq, one_mul, Int.cast_natCast]

/-- Numeric equality, whatever the scales. -/
def numEq (a b : Decimal) : Bool := decide (a.toRat = b.toRat)

@[simp] theorem numEq_iff {a b : Decimal} : a.numEq b = true ↔ a.toRat = b.toRat := by
  simp [numEq]

end Decimal

/-- The decimal number a JSON literal spells. -/
def Json.Number.toDecimal (n : Json.Number) : Decimal :=
  ⟨n.negative, n.coefficient, n.exponent⟩

namespace Json.Number

variable {n : Json.Number} (h : n.isIntegral = true)

include h

theorem frac_of_integral : n.frac = none ∧ n.exp = none := by
  simpa [isIntegral] using h

/-- An integral literal is its digits, unscaled. -/
theorem coefficient_of_integral : n.coefficient = n.int.value := by
  obtain ⟨hfrac, -⟩ := frac_of_integral h
  simp [coefficient, hfrac, Json.Digits.value]

theorem exponent_of_integral : n.exponent = 0 := by
  obtain ⟨hfrac, hexp⟩ := frac_of_integral h
  simp [exponent, hfrac, hexp]

end Json.Number

/-- The least magnitude that rounds to infinity: half a unit above the largest double. -/
def doubleBound : Nat := 2 ^ 1024 - 2 ^ 970

/-- The magnitude does not depend on the sign. -/
theorem Decimal.abs_toRat (d : Decimal) : |d.toRat| = d.coefficient * 10 ^ d.exponent := by
  have hmag := d.magnitude_nonneg
  unfold toRat
  split
  · rw [neg_one_mul, abs_neg, abs_of_nonneg hmag]
  · rw [one_mul, abs_of_nonneg hmag]

end EquipmentMonitoring
