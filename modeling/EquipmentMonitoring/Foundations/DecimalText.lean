import EquipmentMonitoring.Foundations.Decimal
import EquipmentMonitoring.Foundations.Numerals

/-!
# The Text of a Decimal Number (`str` of a Python `Decimal`)

A number whose exponent is not positive, and not too small for its digits, is written with a point
only; any other is written with one digit before the point and an exponent.

## Key Results

- `str_eq_render`: the text is a JSON number token that spells the number itself
-/

namespace EquipmentMonitoring

open EquipmentMonitoring.Json

namespace Decimal

/-! ## Text -/

/-- The digits of the coefficient. -/
def digits (d : Decimal) : Bytes := decimal d.coefficient

/-- How many digits stand left of the point, when the exponent is not written. -/
def leftDigits (d : Decimal) : Int := d.exponent + d.digits.length

/-- How many digits are written left of the point. -/
def dotPlace (d : Decimal) : Int :=
  if d.exponent ≤ 0 ∧ -6 < d.leftDigits then d.leftDigits else 1

/-- Digits with a point after so many of them. -/
def pointed (digits : Bytes) (dotPlace : Int) : Bytes :=
  if dotPlace ≤ 0 then 0x30 :: 0x2E :: (List.replicate (-dotPlace).toNat 0x30 ++ digits)
  else if digits.length ≤ dotPlace then
    digits ++ List.replicate (dotPlace - digits.length).toNat 0x30
  else digits.take dotPlace.toNat ++ 0x2E :: digits.drop dotPlace.toNat

/-- `'E%+d'`, unless it is zero. -/
def exponentText (e : Int) : Bytes :=
  if e = 0 then [] else 0x45 :: (if e < 0 then 0x2D else 0x2B) :: decimal e.natAbs

def str (d : Decimal) : Bytes :=
  (if d.negative then [0x2D] else []) ++ pointed d.digits d.dotPlace ++
    exponentText (d.leftDigits - d.dotPlace)

/-! ## Tokens -/

/-- The exponent part, when it is written. -/
def exponentPart (e : Int) : Option Exponent :=
  if e = 0 then none
  else some {
    marker := 0x45
    marker_valid := .inr rfl
    sign := some (if e < 0 then 0x2D else 0x2B)
    sign_valid := by
      intro b hb
      obtain rfl := Option.some.inj hb
      split <;> simp
    digits := ⟨decimal e.natAbs, decimal_ne_nil _, decimal_digits _⟩ }

theorem expText_exponentPart (e : Int) : expText (exponentPart e) = exponentText e := by
  unfold exponentPart exponentText
  split <;> rfl

theorem value_exponentPart (e : Int) : ((exponentPart e).map Exponent.value).getD 0 = e := by
  unfold exponentPart
  split
  · next he => exact he.symm
  · have hvalue : digitsValue (decimal e.natAbs) = e.natAbs := digitsValue_decimal _
    simp only [Option.map_some, Option.getD_some, Exponent.value, Digits.value, hvalue]
    -- the sign is written only below zero
    rcases lt_or_ge e 0 with hneg | hpos
    · simp only [if_pos hneg, if_true]
      omega
    · simp only [if_neg (show ¬ e < 0 by omega)]
      rw [if_neg (by decide)]
      omega

theorem digits_ne_nil (d : Decimal) : d.digits ≠ [] := decimal_ne_nil _

theorem all_digits (d : Decimal) : d.digits.all isDigit = true := decimal_digits _

theorem digitsValue_zeros (n : Nat) (text : Bytes) :
    digitsValue (List.replicate n 0x30 ++ text) = digitsValue text := by
  have hzeros : digitsValue (List.replicate n 0x30) = 0 := by
    induction n with
    | zero => rfl
    | succ n ih => simp [List.replicate_succ, digitsValue_cons, ih]
  rw [digitsValue_append, hzeros, Nat.zero_mul, Nat.zero_add]

/-- A token with the parts of the number's text. -/
theorem exists_pointed (d : Decimal) (negative : Bool) (exp : Option Exponent) :
    ∃ n : Number, n.negative = negative ∧ n.exp = exp ∧
      n.int.text ++ fracText n.frac = pointed d.digits d.dotPlace ∧
      n.coefficient = d.coefficient ∧
      ((n.frac.map fun ds => ds.text.length).getD 0 : Nat) = d.digits.length - d.dotPlace := by
  have hvalue : digitsValue d.digits = d.coefficient := digitsValue_decimal _
  have hpos : 0 < d.digits.length := List.length_pos_of_ne_nil d.digits_ne_nil
  unfold pointed
  split
  · next hdot =>
    -- zeros stand between the point and the digits
    refine ⟨⟨negative, ⟨[0x30], by simp, by decide⟩, fun _ => rfl,
      some ⟨List.replicate (-d.dotPlace).toNat 0x30 ++ d.digits, by simp [d.digits_ne_nil], ?_⟩, exp⟩,
      rfl, rfl, rfl, ?_, ?_⟩
    · rw [List.all_append, d.all_digits, Bool.and_true]
      simp [isDigit]
    · simp only [Number.coefficient, Option.map_some, Option.getD_some]
      rw [← hvalue, ← digitsValue_zeros ((-d.dotPlace).toNat + 1) d.digits, List.replicate_succ]
      rfl
    · simp only [Option.map_some, Option.getD_some, List.length_append, List.length_replicate]
      omega
  · next hdot =>
    split
    · next hle =>
      have heq : d.dotPlace = d.digits.length := by
        unfold dotPlace leftDigits at *
        split at hle <;> split <;> omega
      refine ⟨⟨negative, ⟨d.digits, d.digits_ne_nil, d.all_digits⟩, decimal_head _, none, exp⟩,
        rfl, rfl, ?_, ?_, ?_⟩
      · simp [fracText, heq]
      · simpa [Number.coefficient] using hvalue
      · simp [heq]
    · next hlt =>
      obtain ⟨k, hk⟩ := Int.eq_ofNat_of_zero_le (show 0 ≤ d.dotPlace by omega)
      simp only [hk, Int.toNat_natCast, not_le, Nat.cast_lt] at hlt hdot ⊢
      have hsplit : d.digits.take k ++ d.digits.drop k = d.digits := List.take_append_drop k _
      have hall := d.all_digits
      rw [← hsplit, List.all_append, Bool.and_eq_true] at hall
      have htake : (d.digits.take k).length = k := List.length_take_of_le (by omega)
      have hdrop : (d.digits.drop k).length = d.digits.length - k := List.length_drop
      refine ⟨⟨negative, ⟨d.digits.take k, List.ne_nil_of_length_pos (by omega), hall.1⟩, fun hhead => ?_,
        some ⟨d.digits.drop k, List.ne_nil_of_length_pos (by omega), hall.2⟩, exp⟩,
        rfl, rfl, rfl, ?_, ?_⟩
      · -- a longer numeral does not begin with a zero
        obtain ⟨b, rest, hcons⟩ := List.exists_cons_of_ne_nil d.digits_ne_nil
        have hfirst : d.digits.head? = some 0x30 := by
          rw [← hsplit, List.head?_append, hhead]
          rfl
        have hzero : d.digits = [0x30] := decimal_head _ hfirst
        rw [hzero, List.length_singleton] at hlt
        omega
      · simp only [Number.coefficient, Option.map_some, Option.getD_some, hsplit]
        exact hvalue
      · simp only [Option.map_some, Option.getD_some, hdrop]
        omega

/-- The text is a number token that spells the number, scale included. -/
theorem str_eq_render (d : Decimal) : ∃ n : Number, n.render = d.str ∧ n.toDecimal = d := by
  obtain ⟨n, hnegative, hexp, htext, hcoefficient, hfrac⟩ :=
    d.exists_pointed d.negative (exponentPart (d.leftDigits - d.dotPlace))
  refine ⟨n, ?_, ?_⟩
  · rw [Number.render, Number.renderTail, str, hnegative, hexp, expText_exponentPart, ← htext]
    simp only [List.append_assoc]
  · have hexponent : n.exponent = d.exponent := by
      rw [Number.exponent, hexp, value_exponentPart, hfrac, leftDigits]
      omega
    rw [Number.toDecimal, hnegative, hcoefficient, hexponent]

end Decimal

end EquipmentMonitoring
