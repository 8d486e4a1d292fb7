import EquipmentMonitoring.Foundations.Json.Reader
import Mathlib.Tactic.IntervalCases

/-!
# RFC 3339 Timestamps

A timestamp text is read into its fields; a second step checks the fields against the Gregorian
calendar and gives the instant in microseconds since the beginning of year 1 in UTC. Digits of the
fraction beyond the sixth are cut off.

## Layers

- `readStamp`: the grammar, up to the ranges of the numbers
- `Stamp.valid`: the calendar
- `Stamp.instant`, `instantOf`: the point in time
-/

namespace EquipmentMonitoring.Rfc3339

open EquipmentMonitoring.Json

/-! ## The Calendar -/

def isLeap (year : Nat) : Bool := year % 4 == 0 && (year % 100 != 0 || year % 400 == 0)

/-- The length of a month, counted from one; zero for any other number. -/
def monthDays (year month : Nat) : Nat :=
  if month = 2 then if isLeap year then 29 else 28
  else if month = 4 ∨ month = 6 ∨ month = 9 ∨ month = 11 then 30
  else if 1 ≤ month ∧ month ≤ 12 then 31
  else 0

/-- Days before the first of January. -/
def daysBeforeYear (year : Nat) : Int :=
  let y : Int := year - 1
  365 * y + y / 4 - y / 100 + y / 400

/-- Days of a year before the first of a month. -/
def daysBeforeMonth (year month : Nat) : Nat :=
  ((List.range (month - 1)).map fun m => monthDays year (m + 1)).sum

/-! ## Fields -/

/-- An offset from UTC. -/
structure Offset where
  behind : Bool
  hours : Nat
  minutes : Nat
deriving DecidableEq

/-- The fields of a timestamp text; no offset for `Z`. -/
structure Stamp where
  year : Nat
  month : Nat
  day : Nat
  hour : Nat
  minute : Nat
  second : Nat
  fraction : Bytes
  offset : Option Offset
deriving DecidableEq

/-- A number of exactly `n` digits. -/
def takeNumber (n : Nat) (s : Bytes) : Option (Nat × Bytes) :=
  if (s.take n).length = n ∧ (s.take n).all isDigit then some (digitsValue (s.take n), s.drop n)
  else none

/-- A number of two digits behind its separator. -/
def takePair (separator : UInt8) (s : Bytes) : Option (Nat × Bytes) :=
  (expectByte separator s).bind (takeNumber 2)

/-- The digits of a fraction, if there is one. -/
def takeFraction (s : Bytes) : Option (Bytes × Bytes) :=
  match s with
  | 0x2E :: s => if s.takeWhile isDigit = [] then none else some (s.takeWhile isDigit, s.dropWhile isDigit)
  | s => some ([], s)

/-- `Z`, or an offset up to the end of the text. -/
def readZone (s : Bytes) : Option (Option Offset) :=
  match s with
  | [] => none
  | b :: s =>
    if b = 0x5A ∧ s = [] then some none
    else if b = 0x2B ∨ b = 0x2D then do
      let (hours, s) ← takeNumber 2 s
      let (minutes, s) ← takePair 0x3A s
      -- the zone ends the text
      if s = [] then some (some ⟨b == 0x2D, hours, minutes⟩) else none
    else none

/-- The fields of a timestamp text. -/
def readStamp (s : Bytes) : Option Stamp := do
  let (year, s) ← takeNumber 4 s
  let (month, s) ← takePair 0x2D s
  let (day, s) ← takePair 0x2D s
  let (hour, s) ← takePair 0x54 s
  let (minute, s) ← takePair 0x3A s
  let (second, s) ← takePair 0x3A s
  let (fraction, s) ← takeFraction s
  let offset ← readZone s
  return ⟨year, month, day, hour, minute, second, fraction, offset⟩

/-! ## Instants -/

namespace Offset

def valid (o : Offset) : Bool := decide (o.hours ≤ 23) && decide (o.minutes ≤ 59)

/-- Minutes ahead of UTC. -/
def ahead (o : Offset) : Int :=
  if o.behind then -((60 * o.hours + o.minutes : Nat) : Int) else (60 * o.hours + o.minutes : Nat)

end Offset

namespace Stamp

/-- The fields are a time of the Gregorian calendar, from year 1 on. -/
def valid (t : Stamp) : Bool :=
  decide (1 ≤ t.year) && (decide (1 ≤ t.day) && decide (t.day ≤ monthDays t.year t.month)) &&
    (decide (t.hour ≤ 23) && decide (t.minute ≤ 59) && decide (t.second ≤ 59)) &&
    t.offset.all Offset.valid

/-- The first six digits of the fraction, as microseconds. -/
def microseconds (t : Stamp) : Nat :=
  digitsValue (t.fraction.take 6) * 10 ^ (6 - (t.fraction.take 6).length)

/-- Minutes since the beginning of year 1, in UTC. -/
def minutes (t : Stamp) : Int :=
  ((daysBeforeYear t.year + daysBeforeMonth t.year t.month + t.day - 1) * 24 + t.hour) * 60 +
    t.minute - (t.offset.map Offset.ahead).getD 0

/-- Microseconds since the beginning of year 1, in UTC. -/
def instant (t : Stamp) : Int := (t.minutes * 60 + t.second) * 1000000 + t.microseconds

end Stamp

/-- The end of year 9999. -/
def endOfTime : Int := daysBeforeYear 10000 * (24 * 60 * 60 * 1000000)

/-- The instant lies in the years 1 to 9999 of UTC. -/
def representable (instant : Int) : Bool := decide (0 ≤ instant) && decide (instant < endOfTime)

/-- The instant a timestamp text names. -/
def instantOf (s : Bytes) : Option Int := do
  let t ← readStamp s
  if t.valid && representable t.instant then some t.instant else none

example : instantOf (ascii "0001-01-01T00:00:00.5Z") = some 500000 := by decide

example : instantOf (ascii "2026-02-29T00:00:00Z") = none := by decide

example : instantOf (ascii "0001-01-01T00:00:00+00:01") = none := by decide

/-! ## Ranges -/

theorem month_range {year month day : Nat} (h : 1 ≤ day ∧ day ≤ monthDays year month) :
    1 ≤ month ∧ month ≤ 12 := by
  unfold monthDays at h
  split at h
  · omega
  · split at h
    · omega
    · split at h <;> omega

/-- A year has 365 days, or 366. -/
theorem daysBeforeYear_succ (year : Nat) :
    daysBeforeYear (year + 1) = daysBeforeYear year + if isLeap year then 366 else 365 := by
  simp only [daysBeforeYear, isLeap, Bool.and_eq_true, Bool.or_eq_true, beq_iff_eq, bne_iff_ne]
  split <;> omega

theorem daysBeforeYear_nonneg {year : Nat} (h : 1 ≤ year) : 0 ≤ daysBeforeYear year := by
  simp only [daysBeforeYear]
  omega

theorem daysBeforeYear_le {year : Nat} (h : year ≤ 10000) :
    daysBeforeYear year ≤ daysBeforeYear 10000 := by
  simp only [daysBeforeYear]
  omega

/-- A day of a year comes before the next year. -/
theorem dayOfYear_le {year month day : Nat} (h : 1 ≤ day ∧ day ≤ monthDays year month) :
    daysBeforeMonth year month + day ≤ if isLeap year then 366 else 365 := by
  obtain ⟨hlow, hhigh⟩ := month_range h
  cases hleap : isLeap year <;> interval_cases month <;>
    simp [monthDays, daysBeforeMonth, List.range, List.range.loop, hleap] at h ⊢ <;> omega

/-- A time of four year digits in UTC is within the calendar. -/
theorem representable_utc {t : Stamp} (h : t.valid = true) (hutc : t.offset = none)
    (hyear : t.year ≤ 9999) (hfraction : t.microseconds < 1000000) :
    representable t.instant = true := by
  simp only [Stamp.valid, Bool.and_eq_true, decide_eq_true_eq] at h
  obtain ⟨⟨⟨hpos, hday⟩, ⟨hhour, hminute⟩, hsecond⟩, -⟩ := h
  have hstart := daysBeforeYear_nonneg hpos
  have hend : daysBeforeYear t.year + (if isLeap t.year then 366 else 365) ≤
      daysBeforeYear 10000 :=
    daysBeforeYear_succ t.year ▸ daysBeforeYear_le (by omega : t.year + 1 ≤ 10000)
  have hdays := dayOfYear_le hday
  -- The last day of year 9999 ends where year 10000 begins.
  have hlast : daysBeforeYear t.year + daysBeforeMonth t.year t.month + t.day ≤
      daysBeforeYear 10000 := by
    cases hleap : isLeap t.year <;> simp only [hleap, if_true, Bool.false_eq_true, if_false] at * <;>
      omega
  rw [representable, Bool.and_eq_true, decide_eq_true_eq, decide_eq_true_eq]
  simp only [Stamp.instant, Stamp.minutes, hutc, endOfTime, Option.map_none, Option.getD_none]
  omega

end EquipmentMonitoring.Rfc3339
