import EquipmentMonitoring.Foundations.Json.Syntax
import Mathlib.Data.Nat.Log
import Mathlib.Tactic.Ring

/-!
# Numerals

Fixed-width numerals, with leading zeros, and plain decimal ones. Numerals of one width spell
different numbers differently, and sort like them.

## Key Results

- `numeral_injective`, `numeral_append_lt`: one number, one numeral, in the same order
- `digitsValue_numeral`: a decimal numeral spells its number
- `decimal_head`: a plain decimal numeral begins with a zero for zero only
- `naturalLiteral`: the JSON number token of a natural number
-/

namespace EquipmentMonitoring

open EquipmentMonitoring.Json

/-! ## Digits -/

/-- A digit of a base up to sixteen, in lower case. -/
def digit (d : Nat) : UInt8 := if d < 10 then (0x30 + d).toUInt8 else (0x57 + d).toUInt8

/-- Digits sort like their numbers. -/
theorem digit_lt_iff {d e : Nat} (hd : d < 16) (he : e < 16) : digit d < digit e ↔ d < e := by
  have hall : ∀ d e : Fin 16, digit d < digit e ↔ d < e := by decide
  exact hall ⟨d, hd⟩ ⟨e, he⟩

theorem digit_injective {d e : Nat} (hd : d < 16) (he : e < 16) (h : digit d = digit e) : d = e := by
  have hall : ∀ d e : Fin 16, digit d = digit e → d = e := by decide
  exact Fin.mk.inj (hall ⟨d, hd⟩ ⟨e, he⟩ h)

/-- Decimal digits are read back. -/
theorem isDigit_digit {d : Nat} (hd : d < 10) :
    isDigit (digit d) = true ∧ (digit d).toNat - 0x30 = d := by
  have hall : ∀ d : Fin 10, isDigit (digit d) = true ∧ (digit d).toNat - 0x30 = d := by decide
  exact hall ⟨d, hd⟩

/-! ## Fixed Width -/

/-- The last `width` digits of a number. -/
def numeral (base : Nat) : Nat → Nat → Bytes
  | 0, _ => []
  | width + 1, n => digit (n / base ^ width % base) :: numeral base width n

@[simp] theorem length_numeral (base width n : Nat) : (numeral base width n).length = width := by
  induction width with
  | zero => rfl
  | succ width ih => simp [numeral, ih]

/-- Only the digits within the width count. -/
theorem numeral_mod (base width n : Nat) :
    numeral base width (n % base ^ width) = numeral base width n := by
  induction width generalizing n with
  | zero => rfl
  | succ width ih =>
    have hdigit : n % base ^ (width + 1) / base ^ width % base = n / base ^ width % base := by
      rw [pow_succ, Nat.mod_mul_right_div_self, Nat.mod_mod]
    have hrest : n % base ^ (width + 1) % base ^ width = n % base ^ width :=
      Nat.mod_mod_of_dvd n (pow_dvd_pow base (Nat.le_succ width))
    rw [numeral, numeral, hdigit, ← ih (n % base ^ (width + 1)), hrest, ih]

/-- A number within the width is its first digit and the rest. -/
theorem div_lt_base {base width n : Nat} (hn : n < base ^ (width + 1)) : n / base ^ width < base :=
  Nat.div_lt_of_lt_mul (by rwa [pow_succ] at hn)

section Order

variable {base : Nat} (hbase : base ≤ 16)

include hbase

/-- Numerals of one width sort like their numbers, and then by what follows. -/
theorem numeral_append_lt {width n m : Nat} (hn : n < base ^ width) (hm : m < base ^ width)
    (s t : Bytes) :
    numeral base width n ++ s < numeral base width m ++ t ↔ n < m ∨ (n = m ∧ s < t) := by
  induction width generalizing n m with
  | zero =>
    obtain rfl : n = 0 := by simpa using hn
    obtain rfl : m = 0 := by simpa using hm
    simp [numeral]
  | succ width ih =>
    -- The leading digit decides, and on a tie the digits below it.
    have hnd := div_lt_base hn
    have hmd := div_lt_base hm
    have hpos : 0 < base ^ width := Nat.pow_pos (Nat.zero_lt_of_lt hnd)
    have hih := ih (Nat.mod_lt n hpos) (Nat.mod_lt m hpos)
    rw [numeral_mod, numeral_mod] at hih
    have hndm := Nat.div_add_mod n (base ^ width)
    have hmdm := Nat.div_add_mod m (base ^ width)
    have hnlt := Nat.mod_lt n hpos
    have hmlt := Nat.mod_lt m hpos
    rw [numeral, numeral, Nat.mod_eq_of_lt hnd, Nat.mod_eq_of_lt hmd, List.cons_append,
      List.cons_append, List.cons_lt_cons_iff, digit_lt_iff (by omega) (by omega), hih]
    constructor
    · rintro (hlt | ⟨heq, hrest⟩)
      · exact .inl (Nat.lt_of_div_lt_div hlt)
      · have hdiv := digit_injective (by omega) (by omega) heq
        rw [hdiv] at hndm
        rcases hrest with hlt | ⟨heq', hlt⟩
        · exact .inl (by omega)
        · exact .inr ⟨by omega, hlt⟩
    · rintro (hlt | ⟨rfl, hlt⟩)
      · rcases Nat.lt_or_ge (n / base ^ width) (m / base ^ width) with hdiv | hdiv
        · exact .inl hdiv
        · have heq : n / base ^ width = m / base ^ width :=
            Nat.le_antisymm (Nat.div_le_div_right hlt.le) hdiv
          rw [heq] at hndm
          exact .inr ⟨by rw [heq], .inl (by omega)⟩
      · exact .inr ⟨rfl, .inr ⟨rfl, hlt⟩⟩

/-- One number, one numeral. -/
theorem numeral_injective {width n m : Nat} (hn : n < base ^ width) (hm : m < base ^ width)
    (h : numeral base width n = numeral base width m) : n = m := by
  have hlt := numeral_append_lt hbase hn hm [] []
  have hgt := numeral_append_lt hbase hm hn [] []
  rw [h] at hlt hgt
  simp only [List.lt_irrefl, and_false, or_false, false_iff, not_lt] at hlt hgt
  exact Nat.le_antisymm hgt hlt

end Order

/-- Every digit is an ASCII digit or letter. -/
theorem mem_numeral {base : Nat} (hpos : 0 < base) (hbase : base ≤ 16) {width n : Nat} {b : UInt8}
    (hb : b ∈ numeral base width n) : 0x30 ≤ b ∧ b ≤ 0x66 := by
  have hall : ∀ d : Fin 16, 0x30 ≤ digit d ∧ digit d ≤ 0x66 := by decide
  induction width with
  | zero => simp [numeral] at hb
  | succ width ih =>
    rw [numeral, List.mem_cons] at hb
    rcases hb with rfl | hb
    · exact hall ⟨_, (Nat.mod_lt _ hpos).trans_le hbase⟩
    · exact ih hb

/-! ## Decimal Numerals -/

theorem numeral_digits (width n : Nat) : (numeral 10 width n).all isDigit = true := by
  induction width with
  | zero => rfl
  | succ width ih =>
    simp only [numeral, List.all_cons, ih, Bool.and_true]
    exact (isDigit_digit (Nat.mod_lt _ (by decide))).1

theorem foldl_digits (start : Nat) (text : Bytes) :
    text.foldl (fun n b => 10 * n + (b.toNat - 0x30)) start =
      start * 10 ^ text.length + digitsValue text := by
  unfold digitsValue
  induction text generalizing start with
  | nil => simp
  | cons b rest ih =>
    rw [List.foldl_cons, List.foldl_cons, ih, ih (10 * 0 + _), List.length_cons, pow_succ]
    ring

theorem digitsValue_cons (b : UInt8) (text : Bytes) :
    digitsValue (b :: text) = (b.toNat - 0x30) * 10 ^ text.length + digitsValue text := by
  have h := foldl_digits (b.toNat - 0x30) text
  rw [← h, digitsValue, List.foldl_cons]
  simp

theorem digitsValue_append (s t : Bytes) :
    digitsValue (s ++ t) = digitsValue s * 10 ^ t.length + digitsValue t := by
  rw [digitsValue, List.foldl_append, foldl_digits]
  rfl

/-- A run of digits spells a number of at most so many digits. -/
theorem digitsValue_lt {text : Bytes} (h : text.all isDigit = true) :
    digitsValue text < 10 ^ text.length := by
  induction text with
  | nil => simp [digitsValue]
  | cons b rest ih =>
    rw [List.all_cons, Bool.and_eq_true] at h
    have hrest := ih h.2
    have hdigit : b.toNat - 0x30 ≤ 9 := by
      have hb := h.1
      simp only [isDigit, Bool.and_eq_true, decide_eq_true_eq, UInt8.le_iff_toNat_le] at hb
      have hle : b.toNat ≤ 0x39 := hb.2
      omega
    have hmul := Nat.mul_le_mul_right (10 ^ rest.length) hdigit
    rw [digitsValue_cons, List.length_cons, pow_succ]
    omega

/-- A decimal numeral spells its number. -/
theorem digitsValue_numeral (width n : Nat) :
    digitsValue (numeral 10 width n) = n % 10 ^ width := by
  induction width with
  | zero => simp [numeral, digitsValue, Nat.mod_one]
  | succ width ih =>
    rw [numeral, digitsValue_cons, ih, length_numeral,
      (isDigit_digit (Nat.mod_lt _ (by decide))).2, pow_succ, Nat.mod_mul, mul_comm, Nat.add_comm]

/-- A number without leading zeros. -/
def decimal (n : Nat) : Bytes := numeral 10 (Nat.log 10 n + 1) n

theorem decimal_digits (n : Nat) : (decimal n).all isDigit = true := numeral_digits _ n

theorem decimal_ne_nil (n : Nat) : decimal n ≠ [] := by
  simp [decimal, numeral]

theorem digitsValue_decimal (n : Nat) : digitsValue (decimal n) = n := by
  rw [decimal, digitsValue_numeral, Nat.mod_eq_of_lt (Nat.lt_pow_succ_log_self (by decide) n)]

/-- A number below a power of ten has at most so many digits. -/
theorem length_decimal {n width : Nat} (hwidth : 0 < width) (h : n < 10 ^ width) :
    (decimal n).length ≤ width := by
  rw [decimal, length_numeral]
  rcases Nat.eq_zero_or_pos n with rfl | hpos
  · rw [Nat.log_zero_right]
    omega
  · have hlog := (Nat.log_lt_iff_lt_pow (by decide) hpos.ne').mpr h
    omega

/-- Only zero begins with a zero. -/
theorem decimal_head (n : Nat) (h : (decimal n).head? = some 0x30) : decimal n = [0x30] := by
  have hfirst : n / 10 ^ Nat.log 10 n % 10 = 0 := by
    refine digit_injective (by omega) (by decide) ?_
    simpa [decimal, numeral, digit] using h
  rcases Nat.eq_zero_or_pos n with rfl | hn
  · simp [decimal, numeral, digit]
  · -- the leading digit of a positive number is not zero
    have hlog := Nat.pow_log_le_self 10 hn.ne'
    have hlt := div_lt_base (Nat.lt_pow_succ_log_self (b := 10) (by decide) n)
    have hpos : 1 ≤ n / 10 ^ Nat.log 10 n :=
      (Nat.one_le_div_iff (Nat.pow_pos (by decide))).mpr hlog
    rw [Nat.mod_eq_of_lt hlt] at hfirst
    omega

/-- The number token of a natural number. -/
def naturalLiteral (n : Nat) : Number where
  negative := false
  int := ⟨decimal n, decimal_ne_nil n, decimal_digits n⟩
  canonical := decimal_head n
  frac := none
  exp := none

@[simp] theorem naturalLiteral_isIntegral (n : Nat) : (naturalLiteral n).isIntegral = true := rfl

@[simp] theorem naturalLiteral_negative (n : Nat) : (naturalLiteral n).negative = false := rfl

@[simp] theorem naturalLiteral_value (n : Nat) : (naturalLiteral n).int.value = n :=
  digitsValue_decimal n

@[simp] theorem naturalLiteral_intValue (n : Nat) : (naturalLiteral n).intValue = n := by
  simp only [Number.intValue, naturalLiteral_value]
  rfl

@[simp] theorem naturalLiteral_coefficient (n : Nat) : (naturalLiteral n).coefficient = n := by
  rw [Number.coefficient]
  exact (congrArg digitsValue (List.append_nil _)).trans (digitsValue_decimal n)

end EquipmentMonitoring
