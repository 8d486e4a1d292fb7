import EquipmentMonitoring.Foundations.DecimalText
import EquipmentMonitoring.Foundations.Json.RoundTrip

/-!
# What the Dashboard Accepts (`frontend/src/api.ts`)

The dashboard checks the body of every response and rejects it as a whole when a part has not the
shape it expects.

## Layers

- `matchNumber`, `isTemperatureValue`: numbers sent as text
- `isLatestReading`, `isDeviceStatus`, `getDevices`: the device list
- `isHistoryPoint`, `isDeviceHistory`, `getDeviceHistory`: the history of a device
-/

namespace EquipmentMonitoring.Frontend

open EquipmentMonitoring.Json

/-! ## Numbers -/

/-- The number that the parts of a match spell. -/
def spelledNumber (negative : Bool) (int : Digits) (frac : Option Digits) (exp : Option Exponent) :
    Decimal where
  negative := negative
  coefficient := digitsValue (int.text ++ (frac.map Digits.text).getD [])
  exponent := (exp.map Exponent.value).getD 0 - ((frac.map fun ds => ds.text.length).getD 0 : Nat)

/-- The pattern behind its sign. -/
def matchUnsigned (negative : Bool) (text : Bytes) : Option Decimal := do
  let (int, s₁) ← scanDigits text
  let (frac, s₂) ← scanFrac s₁
  let (exp, s₃) ← scanExp s₂
  if s₃ = [] then some (spelledNumber negative int frac exp) else none

/-- `/^-?\d+(?:\.\d+)?(?:[eE][+-]?\d+)?$/`, with the number that a matching text spells. -/
def matchNumber : Bytes → Option Decimal
  | [] => none
  | b :: s => if b = 0x2D then matchUnsigned true s else matchUnsigned false (b :: s)

/-- `Number.isFinite` of the nearest double. -/
def isFinite (d : Decimal) : Bool := compareNat d.coefficient d.exponent doubleBound == .lt

def isTemperatureValue : Value → Bool
  | .number n => isFinite n.toDecimal
  | .string text =>
    match matchNumber text with
    | some d => isFinite d
    | none => false
  | _ => false

theorem isFinite_iff (d : Decimal) : isFinite d = true ↔ |d.toRat| < doubleBound := by
  rw [isFinite, compareNat_eq, beq_iff_eq, compare_lt_iff_lt, d.abs_toRat]

theorem matchUnsigned_render (n : Number) (negative : Bool) :
    matchUnsigned negative (n.int.text ++ n.renderTail) =
      some ⟨negative, n.coefficient, n.exponent⟩ := by
  have hexpDigit : NotStarting isDigit (expText n.exp) := by
    simpa using notStarting_exp isDigit (by decide) (by decide) n.exp (r := []) (by simp)
  have hexpDot : NotStarting (· == 0x2E) (expText n.exp) := by
    simpa using notStarting_exp (· == 0x2E) (by decide) (by decide) n.exp (r := []) (by simp)
  have hfracDigit : NotStarting isDigit (n.renderTail) := by
    rw [Number.renderTail]
    cases n.frac with
    | none => exact hexpDigit
    | some ds => simp [fracText, isDigit]
  have hexp : scanExp (expText n.exp) = some (n.exp, []) := by
    simpa using scanExp_render n.exp (r := []) (by simp)
  have hfrac : scanFrac n.renderTail = some (n.frac, expText n.exp) :=
    scanFrac_render n.frac hexpDigit fun _ => hexpDot
  simp only [matchUnsigned, scanDigits_render n.int hfracDigit, hfrac, hexp, Option.bind_eq_bind,
    Option.bind_some, if_true]
  rfl

/-- A number token matches, and spells its number. -/
theorem matchNumber_render (n : Number) : matchNumber n.render = some n.toDecimal := by
  obtain ⟨b, rest, hint⟩ := List.exists_cons_of_ne_nil n.int.nonempty
  have hdigit : b ≠ 0x2D := by
    have hall := n.int.digits
    rw [hint, List.all_cons, Bool.and_eq_true] at hall
    rintro rfl
    exact absurd hall.1 (by decide)
  have hunsigned := matchUnsigned_render n n.negative
  cases hneg : n.negative with
  | true =>
    rw [hneg] at hunsigned
    simp only [Number.render, hneg, if_true, List.cons_append, List.nil_append,
      Number.toDecimal]
    rw [matchNumber, if_pos rfl, hunsigned]
  | false =>
    rw [hneg, hint] at hunsigned
    simp only [Number.render, hneg, hint, Number.toDecimal, Bool.false_eq_true, if_false,
      List.nil_append, List.cons_append] at hunsigned ⊢
    rw [matchNumber, if_neg hdigit, hunsigned]

/-- A decimal number passes, as text, exactly when it is finite as a double. -/
theorem isTemperatureValue_str (d : Decimal) :
    isTemperatureValue (.string d.str) = true ↔ |d.toRat| < doubleBound := by
  obtain ⟨n, hrender, hn⟩ := d.str_eq_render
  rw [isTemperatureValue, ← hrender, matchNumber_render, hn]
  exact isFinite_iff d

/-! ## Shapes -/

/-- `value.name`, for a name that is no property of the prototype; a later member replaces an
earlier one. -/
def property (v : Value) (name : String) : Option Value :=
  (v.members.reverse.find? fun m => m.1 == ascii name).map Prod.snd

/-- `"name" in value`, with a check of the property. -/
def hasProperty (v : Value) (name : String) (check : Value → Bool) : Bool :=
  (property v name).any check

def isString : Value → Bool
  | .string _ => true
  | _ => false

def isBoolean : Value → Bool
  | .bool _ => true
  | _ => false

def nullOr (check : Value → Bool) : Value → Bool
  | .null => true
  | v => check v

/-- `Array.isArray(value) && value.every(check)`. -/
def everyItem (check : Value → Bool) : Value → Bool
  | .array items => items.all check
  | _ => false

/-- `String(value)`, for what can be one of the words it is compared with: a string, or an array
that holds nothing else. -/
def stringOf : Value → Option Bytes
  | .string text => some text
  | .array [v] => stringOf v
  | _ => none

/-- `[..].includes(String(value))`. -/
def includes (words : List String) (v : Value) : Bool :=
  words.any fun word => stringOf v == some (ascii word)

/-- The part of the JavaScript engine that the checks use: the texts that `Date.parse` reads. -/
structure Engine where
  parsesDate : Bytes → Bool

namespace Engine

variable (js : Engine)

def isTimestamp : Value → Bool
  | .string text => js.parsesDate text
  | _ => false

/-! ## The Device List -/

def timestampSources : List String := ["measured_at", "gateway_received_at"]

def clockWords : List String := ["synchronised", "unsynchronised", "estimated", "unknown"]

def isLatestReading (v : Value) : Bool :=
  hasProperty v "value" isTemperatureValue && hasProperty v "unit" isString &&
    hasProperty v "measured_at" (nullOr isString) &&
    hasProperty v "gateway_received_at" js.isTimestamp &&
    hasProperty v "event_at" js.isTimestamp &&
    hasProperty v "timestamp_source" (includes timestampSources) &&
    hasProperty v "clock_quality" (includes clockWords)

def isDeviceStatus (v : Value) : Bool :=
  hasProperty v "device_id" isString && hasProperty v "name" isString &&
    hasProperty v "gateway_id" isString && hasProperty v "enabled" isBoolean &&
    hasProperty v "online" isBoolean && hasProperty v "last_seen_at" (nullOr js.isTimestamp) &&
    hasProperty v "latest_reading" (nullOr js.isLatestReading)

/-- `getDevices`, for the body of a response that is ok: none is `Error("Invalid device response")`. -/
def getDevices (body : Value) : Option Value :=
  if hasProperty body "devices" (everyItem js.isDeviceStatus) then property body "devices" else none

/-! ## The History of a Device -/

def isHistoryPoint (v : Value) : Bool :=
  hasProperty v "event_at" js.isTimestamp &&
    hasProperty v "timestamp_source" (includes timestampSources) &&
    hasProperty v "measured_at" (nullOr js.isTimestamp) &&
    hasProperty v "gateway_received_at" js.isTimestamp &&
    hasProperty v "clock_quality" (includes clockWords) &&
    hasProperty v "value" isTemperatureValue && hasProperty v "unit" isString &&
    hasProperty v "gap_before" isBoolean

def isDeviceHistory (v : Value) : Bool :=
  hasProperty v "device_id" isString && hasProperty v "unit" isString &&
    hasProperty v "range_start" js.isTimestamp && hasProperty v "range_end" js.isTimestamp &&
    hasProperty v "truncated" isBoolean && hasProperty v "points" (everyItem js.isHistoryPoint)

/-- `value === text`. -/
def isText (text : Bytes) : Value → Bool
  | .string t => t == text
  | _ => false

/-- `getDeviceHistory`, for the body of a response that is ok: none is
`Error("Invalid history response")`. -/
def getDeviceHistory (deviceId : Bytes) (body : Value) : Option Value :=
  if js.isDeviceHistory body && hasProperty body "device_id" (isText deviceId) then some body
  else none

end Engine

end EquipmentMonitoring.Frontend
