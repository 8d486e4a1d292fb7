import EquipmentMonitoring.Exchange.Contract
import EquipmentMonitoring.Exchange.Loading
import EquipmentMonitoring.Firmware.Telemetry

/-!
# Firmware Events Downstream

The text a device publishes is the rendering of a syntax tree, and that tree satisfies the
contract. What the gateway accepts and the backend reads of it follows from the contract.

## Layers

- `escapedLiteral`, `fixed4Literal`, `calendarStamp`: the tokens of an event
- `firmwareTree`: its syntax tree
- `contractValid_firmware`: the event the tree spells
- `firmware_event_understood`: how it passes the gateway and the backend
-/

namespace EquipmentMonitoring.Exchange

open EquipmentMonitoring.Json EquipmentMonitoring.Forwarder EquipmentMonitoring.Firmware
open EquipmentMonitoring.Rfc3339 (DigitRun StampText)

/-! ## Strings -/

theorem simpleEscape_quote : (simpleEscape 0x22).isSome = true := rfl

theorem simpleEscape_backslash : (simpleEscape 0x5C).isSome = true := rfl

theorem simpleEscape_slash : (simpleEscape 0x2F).isSome = true := rfl

/-- The spelled unit for one octet of a JSON string. -/
def escapedChar (b : UInt8) : StringChar :=
  if h : isPlain b = true then .plain b h
  else if b = 0x22 then .escape 0x22 simpleEscape_quote
  else if b = 0x5C then .escape 0x5C simpleEscape_backslash
  else if h : (isHex 0x30 && isHex 0x30 && isHex (digit (b.toNat / 16 % 16)) &&
      isHex (digit (b.toNat % 16))) = true then
    .unicode 0x30 0x30 (digit (b.toNat / 16 % 16)) (digit (b.toNat % 16)) h
  else .escape 0x2F simpleEscape_slash

theorem escapedChar_render (b : UInt8) : (escapedChar b).render = escapedByte b :=
  of_decide_eq_true (Utf8.forall_octet
    (p := fun b => decide ((escapedChar b).render = escapedByte b)) (by decide +kernel) b)

theorem escapedChar_standsFor (b : UInt8) : Nlohmann.StandsFor b (escapedChar b) = true := by
  revert b
  exact Utf8.forall_octet (by decide +kernel)

def escapedLiteral (text : Bytes) : Literal := text.map escapedChar

theorem escapedLiteral_render (text : Bytes) :
    Literal.render (escapedLiteral text) = jsonString text := by
  simp [Literal.render, Literal.raw, escapedLiteral, List.flatMap_map, escapedChar_render, jsonString]

theorem escapedLiteral_decode (text : Bytes) : Literal.decode (escapedLiteral text) = text :=
  Nlohmann.decode_map escapedChar_standsFor text

/-! ## Numbers -/

theorem naturalLiteral_render {i : Int64} (h : 0 ≤ i.toInt) :
    (naturalLiteral i.toInt.toNat).render = signedDecimal i := by
  have habs : i.toInt.natAbs = i.toInt.toNat := by omega
  rw [signedDecimal, if_neg (by omega), habs]
  simp [Number.render, naturalLiteral, Number.renderTail, fracText, expText]

/-- The four digits behind the point. -/
def fixed4Fraction (x : FiniteFloat) : Digits where
  text := numeral 10 4 x.tenThousandths
  nonempty := by simp [numeral]
  digits := numeral_digits 4 _

def fixed4Literal (x : FiniteFloat) : Number where
  negative := x.negative
  int := ⟨decimal (x.tenThousandths / 10 ^ 4), decimal_ne_nil _, decimal_digits _⟩
  canonical := decimal_head _
  frac := some (fixed4Fraction x)
  exp := none

theorem fixed4Literal_render (x : FiniteFloat) : (fixed4Literal x).render = fixed4 x := by
  cases hneg : x.negative <;>
    simp [Number.render, fixed4Literal, Number.renderTail, fracText, expText, fixed4,
      fixed4Fraction, hneg]

theorem fixed4Literal_coefficient (x : FiniteFloat) :
    (fixed4Literal x).coefficient = x.tenThousandths := by
  have happend : (fixed4Literal x).coefficient =
      digitsValue (decimal (x.tenThousandths / 10 ^ 4) ++ numeral 10 4 x.tenThousandths) := rfl
  rw [happend, digitsValue_append, digitsValue_decimal, digitsValue_numeral, length_numeral]
  omega

theorem fixed4Literal_exponent (x : FiniteFloat) : (fixed4Literal x).exponent = -4 := by
  have hlength : (fixed4Fraction x).text.length = 4 := length_numeral 10 4 _
  simp [Number.exponent, fixed4Literal, hlength]

/-- The number published for a reading: the reading, rounded to four places. -/
theorem fixed4Literal_rounds (x : FiniteFloat) :
    RoundsTo (x.toRat * 10 ^ 4)
        (if x.negative then -(x.tenThousandths : ℤ) else x.tenThousandths) ∧
      (Backend.loadedDecimal (fixed4Literal x)).toRat =
        ((if x.negative then -(x.tenThousandths : ℤ) else x.tenThousandths : ℤ) : ℚ) / 10 ^ 4 := by
  have hround := x.tenThousandths_roundsTo
  have hmag : (0 : ℚ) ≤ x.significand * 2 ^ x.exponent := by positivity
  have habs := x.abs_toRat
  have hloaded : Backend.loadedDecimal (fixed4Literal x) = ⟨x.negative, x.tenThousandths, -4⟩ := by
    have hint : (fixed4Literal x).isIntegral = false := rfl
    rw [Backend.loadedDecimal, hint, Number.toDecimal, fixed4Literal_coefficient,
      fixed4Literal_exponent]
    rfl
  rw [hloaded, Decimal.toRat]
  -- The sign is printed apart: the digits are those of the absolute value.
  cases hneg : x.negative
  · have hvalue : x.toRat = |x.toRat| := by
      rw [habs, FiniteFloat.toRat, hneg]
      simp
    rw [hvalue]
    refine ⟨hround, ?_⟩
    simp [zpow_neg, div_eq_mul_inv]
  · have hvalue : x.toRat = -|x.toRat| := by
      rw [habs, FiniteFloat.toRat, hneg]
      simp
    rw [hvalue, neg_mul]
    refine ⟨hround.neg, ?_⟩
    simp [zpow_neg, div_eq_mul_inv]

theorem fixed4Literal_finite {x : FiniteFloat} (h : -55 ≤ x.toRat ∧ x.toRat ≤ 125) :
    RoundsFinite (Backend.loadedDecimal (fixed4Literal x)) := by
  have hle : (x.tenThousandths : ℚ) ≤ 1250000 := by exact_mod_cast tenThousandths_le h
  have hbound : 126 ≤ doubleBound := by decide +kernel
  rw [RoundsFinite, Backend.abs_loadedDecimal, fixed4Literal_coefficient, fixed4Literal_exponent]
  calc (x.tenThousandths : ℚ) * 10 ^ (-4 : ℤ) ≤ 1250000 * 10 ^ (-4 : ℤ) := by gcongr
    _ < 126 := by norm_num
    _ ≤ doubleBound := by exact_mod_cast hbound

/-! ## Times -/

def digitRun (width n : Nat) : DigitRun width :=
  ⟨numeral 10 width n, length_numeral 10 width n, numeral_digits width n⟩

theorem digitRun_value {width n : Nat} (h : n < 10 ^ width) : (digitRun width n).value = n := by
  rw [DigitRun.value, digitRun, digitsValue_numeral, Nat.mod_eq_of_lt h]

/-- The fields of a printed time. -/
def calendarStamp (t : CalendarTime) : StampText where
  year := digitRun 4 t.year.toNat
  month := digitRun 2 t.month
  day := digitRun 2 t.day
  hour := digitRun 2 t.hour
  minute := digitRun 2 t.minute
  second := digitRun 2 t.second
  fraction := numeral 10 3 (t.microsecond / 1000)
  fraction_digits := numeral_digits 3 _
  zone := none

theorem calendarStamp_render (t : CalendarTime) : (calendarStamp t).render = t.text := by
  have hfraction : numeral 10 3 (t.microsecond / 1000) ≠ [] := by simp [numeral]
  simp [StampText.render, StampText.renderSeconds, Rfc3339.renderFraction, Rfc3339.renderZone,
    calendarStamp, digitRun, CalendarTime.text, hfraction]

/-- Microseconds since the beginning of year 1, in UTC. -/
def calendarInstant (t : CalendarTime) : Int :=
  ((((Rfc3339.daysBeforeYear t.year.toNat + Rfc3339.daysBeforeMonth t.year.toNat t.month + t.day - 1) *
    24 + t.hour) * 60 + t.minute) * 60 + t.second) * 1000000 + t.microsecond

theorem monthDays_le (year month : Nat) : Rfc3339.monthDays year month ≤ 31 := by
  unfold Rfc3339.monthDays
  split
  · split <;> omega
  · split
    · omega
    · split <;> omega

section Calendar

variable {t : CalendarTime} (hyear : 2020 ≤ t.year ∧ t.year ≤ 9999)

include hyear

/-- The printed fields are those of the time. -/
theorem calendarStamp_stamp : (calendarStamp t).stamp =
    ⟨t.year.toNat, t.month, t.day, t.hour, t.minute, t.second,
      numeral 10 3 (t.microsecond / 1000), none⟩ := by
  have hday := t.day_range
  have hdays := monthDays_le t.year.toNat t.month
  have hmonth := Rfc3339.month_range hday
  have hhour := t.hour_le
  have hminute := t.minute_le
  have hsecond := t.second_le
  simp only [StampText.stamp, calendarStamp, Option.map_none]
  rw [digitRun_value (by omega), digitRun_value (by omega), digitRun_value (by omega),
    digitRun_value (by omega), digitRun_value (by omega), digitRun_value (by omega)]

theorem calendarStamp_valid : (calendarStamp t).stamp.valid = true := by
  rw [calendarStamp_stamp hyear]
  have hday := t.day_range
  have hyear' : 1 ≤ t.year.toNat := by omega
  simp [Rfc3339.Stamp.valid, hyear', hday.1, hday.2, t.hour_le, t.minute_le, t.second_le]

/-- A printed time names its instant, to the millisecond. -/
theorem calendarStamp_instant : (calendarStamp t).stamp.instant =
    calendarInstant t - t.microsecond % 1000 := by
  have hmicro := t.microsecond_lt
  have htake : (numeral 10 3 (t.microsecond / 1000)).take 6 =
      numeral 10 3 (t.microsecond / 1000) := List.take_of_length_le (by simp)
  have hvalue : digitsValue (numeral 10 3 (t.microsecond / 1000)) = t.microsecond / 1000 := by
    rw [digitsValue_numeral, Nat.mod_eq_of_lt (by omega)]
  rw [calendarStamp_stamp hyear]
  simp only [Rfc3339.Stamp.instant, Rfc3339.Stamp.minutes, Rfc3339.Stamp.microseconds, htake, hvalue,
    length_numeral, calendarInstant, Option.map_none, Option.getD_none]
  push_cast
  omega

/-- The instant lies in the calendar of the backend. -/
theorem calendar_representable :
    Rfc3339.representable (calendarStamp t).stamp.instant = true := by
  have hvalid := calendarStamp_valid hyear
  have hmicro := t.microsecond_lt
  rw [calendarStamp_stamp hyear] at hvalid ⊢
  refine Rfc3339.representable_utc hvalid rfl (by simp only; omega) ?_
  have htake : (numeral 10 3 (t.microsecond / 1000)).take 6 =
      numeral 10 3 (t.microsecond / 1000) := List.take_of_length_le (by simp)
  simp only [Rfc3339.Stamp.microseconds, htake, digitsValue_numeral, length_numeral]
  omega

end Calendar

/-- The instant a reading is given, if any. -/
def readingTime (now : Option CalendarTime) : Option Int :=
  now.bind fun t =>
    if 2020 ≤ t.year ∧ t.year ≤ 9999 then some (calendarInstant t - t.microsecond % 1000) else none

/-! ## Events -/

def measuredAtTree (measuredAt : Bytes) : Tree :=
  if measuredAt = [] then .null else .string (escapedLiteral measuredAt)

def qualityTree (measuredAt : Bytes) : Tree :=
  .object (tightMember (ascii "reading") (.string (escapedLiteral (ascii "valid"))))
    [tightMember (ascii "clock") (.string (escapedLiteral (Firmware.clockText measuredAt)))]

/-- The members behind the schema version. -/
def firmwareMembers (event : Firmware.TelemetryEvent) (celsius : FiniteFloat) : List (Member Tree) :=
  [tightMember (ascii "device_id") (.string (escapedLiteral event.deviceId.text)),
    tightMember (ascii "boot_id") (.string (escapedLiteral event.bootId.text)),
    tightMember (ascii "sequence_number")
      (.number (naturalLiteral event.sequenceNumber.toInt.toNat)),
    tightMember (ascii "measured_at") (measuredAtTree event.measuredAt.text),
    tightMember (ascii "device_uptime_ms")
      (.number (naturalLiteral event.deviceUptimeMs.toInt.toNat)),
    tightMember (ascii "metric") (.string (escapedLiteral (ascii "temperature"))),
    tightMember (ascii "value") (.number (fixed4Literal celsius)),
    tightMember (ascii "unit") (.string (escapedLiteral (ascii "celsius"))),
    tightMember (ascii "quality") (qualityTree event.measuredAt.text)]

/-- The syntax tree of an event. -/
def firmwareTree (event : Firmware.TelemetryEvent) (celsius : FiniteFloat) : Tree :=
  .object (tightMember (ascii "schema_version") (.number oneLiteral)) (firmwareMembers event celsius)

theorem renderMember_tight (key : Bytes) (value : Tree) :
    renderMember (tightMember key value) =
      Literal.render (Nlohmann.dumpLiteral key) ++ 0x3A :: value.render := by
  simp [renderMember, tightMember, Space.none]

theorem measuredAtTree_render (measuredAt : Bytes) :
    (measuredAtTree measuredAt).render = measuredAtJson measuredAt := by
  unfold measuredAtTree measuredAtJson
  split
  · rfl
  · exact escapedLiteral_render measuredAt

theorem qualityTree_render (measuredAt : Bytes) : (qualityTree measuredAt).render =
    ascii "\x7b\"reading\":\"valid\",\"clock\":\"" ++ Firmware.clockText measuredAt ++ ascii "\"\x7d" := by
  simp only [qualityTree, Tree.render, renderMembers, renderMember_tight, escapedLiteral_render]
  unfold Firmware.clockText
  split <;> decide

/-- The fixed pieces of an event's text, cut where its tokens end. -/
theorem encoding_pieces :
    ascii "\x7b\"schema_version\":1,\"device_id\":" =
      0x7B :: 0x22 :: (ascii "schema_version" ++ 0x22 :: 0x3A :: 0x31 :: 0x2C :: 0x22 ::
        (ascii "device_id" ++ [0x22, 0x3A])) ∧
    ascii ",\"boot_id\":" = 0x2C :: 0x22 :: (ascii "boot_id" ++ [0x22, 0x3A]) ∧
    ascii ",\"sequence_number\":" = 0x2C :: 0x22 :: (ascii "sequence_number" ++ [0x22, 0x3A]) ∧
    ascii ",\"measured_at\":" = 0x2C :: 0x22 :: (ascii "measured_at" ++ [0x22, 0x3A]) ∧
    ascii ",\"device_uptime_ms\":" = 0x2C :: 0x22 :: (ascii "device_uptime_ms" ++ [0x22, 0x3A]) ∧
    ascii ",\"metric\":\"temperature\",\"value\":" =
      0x2C :: 0x22 :: (ascii "metric" ++ 0x22 :: 0x3A :: 0x22 :: (ascii "temperature" ++
        0x22 :: 0x2C :: 0x22 :: (ascii "value" ++ [0x22, 0x3A]))) ∧
    ascii ",\"unit\":\"celsius\",\"quality\":\x7b\"reading\":\"valid\",\"clock\":\"" =
      0x2C :: 0x22 :: (ascii "unit" ++ 0x22 :: 0x3A :: 0x22 :: (ascii "celsius" ++
        0x22 :: 0x2C :: 0x22 :: (ascii "quality" ++ 0x22 :: 0x3A ::
          ascii "\x7b\"reading\":\"valid\",\"clock\":\""))) ∧
    ascii "\"\x7d\x7d" = ascii "\"\x7d" ++ [0x7D] := by
  decide

/-- The text of an event is that of its tree. -/
theorem firmwareTree_render {event : Firmware.TelemetryEvent} (celsius : FiniteFloat)
    (hsequence : 0 ≤ event.sequenceNumber.toInt) (huptime : 0 ≤ event.deviceUptimeMs.toInt) :
    (firmwareTree event celsius).render = encoding event celsius := by
  have hkeys : ∀ key ∈ Telemetry.eventFields,
      Literal.render (Nlohmann.dumpLiteral key) = 0x22 :: (key ++ [0x22]) := by decide
  have hmetric : jsonString (ascii "temperature") = 0x22 :: (ascii "temperature" ++ [0x22]) := by decide
  have hunit : jsonString (ascii "celsius") = 0x22 :: (ascii "celsius" ++ [0x22]) := by decide
  have hone : oneLiteral.render = [0x31] := rfl
  obtain ⟨hversion, hboot, hnumber, hmeasured, huptimeKey, hvalue, hquality, hend⟩ := encoding_pieces
  simp only [Telemetry.eventFields, List.forall_mem_cons] at hkeys
  simp only [firmwareTree, firmwareMembers, Tree.render, renderMembers, renderMember_tight,
    escapedLiteral_render, naturalLiteral_render hsequence, naturalLiteral_render huptime,
    fixed4Literal_render, measuredAtTree_render, qualityTree_render, hkeys, hmetric, hunit, hone,
    encoding, eventTail, hversion, hboot, hnumber, hmeasured, huptimeKey, hvalue, hquality, hend]
  simp only [List.append_assoc, List.cons_append, List.nil_append, List.append_nil]

/-! ## What the Backend Reads -/

theorem value_escaped (text : Bytes) : (Tree.string (escapedLiteral text)).value = .string text :=
  congrArg Value.string (escapedLiteral_decode text)

/-- The measurement time is read as the instant it was made from. -/
theorem readMeasuredAt_tree (now : Option CalendarTime) :
    Backend.readNullable Backend.readTimestamp (measuredAtTree (measuredAtText now)).value =
        .ok (readingTime now) ∧
      (measuredAtText now = [] ↔ readingTime now = none) := by
  cases now with
  | none => exact ⟨rfl, by simp [measuredAtText, readingTime]⟩
  | some t =>
    by_cases hyear : 2020 ≤ t.year ∧ t.year ≤ 9999
    · have hlength := length_calendarText t
      -- a clock that is set writes its time, to the millisecond
      have htext : measuredAtText (some t) = t.text := by
        rw [measuredAtText, if_pos hyear, if_neg (by rw [hlength]; decide)]
      have hne : t.text ≠ [] := List.ne_nil_of_length_pos (by omega)
      have htime : readingTime (some t) = some (calendarInstant t - t.microsecond % 1000) := by
        simp [readingTime, hyear]
      have hinstant : Rfc3339.instantOf t.text = some (calendarInstant t - t.microsecond % 1000) :=
        Rfc3339.instantOf_eq_some.mpr ⟨calendarStamp t, calendarStamp_render t,
          calendarStamp_valid hyear, calendar_representable hyear, calendarStamp_instant hyear⟩
      rw [htext, htime, measuredAtTree, if_neg hne, value_escaped]
      refine ⟨?_, by simp [hne]⟩
      simp [Backend.readNullable, Backend.readTimestamp, hinstant, Except.map]
    · -- a clock that has never been set writes null
      have htext : measuredAtText (some t) = [] := by rw [measuredAtText, if_neg hyear]
      have htime : readingTime (some t) = none := by simp [readingTime, hyear]
      rw [htext, htime]
      exact ⟨rfl, by simp⟩

/-- The clock that goes with a measurement time. -/
def clockQuality (measuredAt : Option Int) : Backend.ClockQuality :=
  if measuredAt.isSome then .synchronised else .unsynchronised

theorem clockQuality_synchronised (measuredAt : Option Int) :
    clockQuality measuredAt = .synchronised ↔ measuredAt.isSome = true := by
  cases measuredAt <;> simp [clockQuality]

theorem validateQuality_tree (now : Option CalendarTime) :
    Backend.validateQuality (qualityTree (measuredAtText now)).value =
      .valid ⟨.valid, clockQuality (readingTime now)⟩ := by
  have hiff := (readMeasuredAt_tree now).2
  have hclock : Firmware.clockText (measuredAtText now) =
      if (readingTime now).isSome then ascii "synchronised" else ascii "unsynchronised" := by
    unfold Firmware.clockText
    cases htime : readingTime now with
    | none => rw [if_pos (hiff.mpr htime)]; rfl
    | some t =>
      rw [if_neg fun h => by simp [hiff.mp h] at htime]
      rfl
  rw [qualityTree, hclock, clockQuality]
  split <;> rfl

theorem isIdentifier_deviceId {deviceId : CString} (hdevice : isDeviceId deviceId.text = true)
    (hutf8 : Utf8.valid deviceId.text = true) : Backend.isIdentifier deviceId.text = true := by
  obtain ⟨hne, hlength, -, hprintable⟩ := deviceIdText hdevice
  have hle := (Utf8.length_le_size deviceId.text).trans hlength
  have hnul : 0 ∉ deviceId.text := deviceId.noNul
  simp [Backend.isIdentifier, hutf8, hne, hnul, Backend.maxIdentifierLength, hle]

theorem isIdentifier_bootId (mac : Mac) (counter : UInt64) :
    Backend.isIdentifier (bootIdText mac counter) = true := by
  have hlength := length_bootIdText mac counter
  have hutf8 : Utf8.valid (bootIdText mac counter) = true :=
    Utf8.valid_of_ascii fun b hb => UInt8.le_trans (bootIdText_range hb).2 (by decide)
  have hle := Utf8.length_le_size (bootIdText mac counter)
  have hne : bootIdText mac counter ≠ [] := List.ne_nil_of_length_pos (by omega)
  have hnul : 0 ∉ bootIdText mac counter := (bootIdString mac counter).noNul
  rw [hlength] at hle
  have hmax : Utf8.length (bootIdText mac counter) ≤ Backend.maxIdentifierLength :=
    hle.trans (by decide)
  simp [Backend.isIdentifier, hutf8, hne, hnul, hmax]

/-- A counter of the firmware as the backend holds it. -/
def counterOfInt64 (i : Int64) : Backend.Counter :=
  ⟨i.toInt.toNat, by have := i.toInt_lt; simp only [Backend.maxCounter]; omega⟩

theorem counterOfInt64_value {i : Int64} (h : 0 ≤ i.toInt) :
    ((counterOfInt64 i).value : Int) = i.toInt := Int.toNat_of_nonneg h

theorem readCounter_natural (i : Int64) :
    Backend.readCounter (.number (naturalLiteral i.toInt.toNat)) = .ok (counterOfInt64 i) :=
  Backend.readCounter_of rfl (naturalLiteral_intValue _)

/-- The event the backend is meant to read. -/
def expectedEvent (deviceId bootId : Backend.Identifier) (pending : QueuedReading)
    (celsius : FiniteFloat) (now : Option CalendarTime) (receivedAt : Int) : Backend.TelemetryEvent where
  deviceId := deviceId
  bootId := bootId
  sequenceNumber := counterOfInt64 pending.sequenceNumber
  measuredAt := readingTime now
  deviceUptimeMs := counterOfInt64 pending.deviceUptimeMs
  gatewayReceivedAt := receivedAt
  metric := .temperature
  value := Backend.loadedDecimal (fixed4Literal celsius)
  unit := .celsius
  quality := ⟨.valid, clockQuality (readingTime now)⟩

/-- The content of an event's text. -/
def firmwareFields (event : Firmware.TelemetryEvent) (celsius : FiniteFloat) : List (Bytes × Value) :=
  [(ascii "schema_version", .number oneLiteral), (ascii "device_id", .string event.deviceId.text),
    (ascii "boot_id", .string event.bootId.text),
    (ascii "sequence_number", .number (naturalLiteral event.sequenceNumber.toInt.toNat)),
    (ascii "measured_at", (measuredAtTree event.measuredAt.text).value),
    (ascii "device_uptime_ms", .number (naturalLiteral event.deviceUptimeMs.toInt.toNat)),
    (ascii "metric", .string (ascii "temperature")), (ascii "value", .number (fixed4Literal celsius)),
    (ascii "unit", .string (ascii "celsius")),
    (ascii "quality", (qualityTree event.measuredAt.text).value)]

theorem firmwareTree_value (event : Firmware.TelemetryEvent) (celsius : FiniteFloat) :
    (firmwareTree event celsius).value = .object (firmwareFields event celsius) := by
  simp only [firmwareTree, firmwareMembers, Tree.value_object, List.map_cons, List.map_nil,
    tightMember, value_escaped]
  rfl

theorem qualityTree_unique (measuredAt : Bytes) : (qualityTree measuredAt).uniqueKeys = true := by
  rw [qualityTree, Tree.uniqueKeys_object]
  rfl

theorem firmwareTree_unique (event : Firmware.TelemetryEvent) (celsius : FiniteFloat) :
    (firmwareTree event celsius).uniqueKeys = true := by
  have hmeasured : (measuredAtTree event.measuredAt.text).uniqueKeys = true := by
    unfold measuredAtTree
    split <;> rfl
  rw [firmwareTree, Tree.uniqueKeys_object, Bool.and_eq_true, decide_eq_true_iff]
  constructor
  · have hnodup : Telemetry.eventFields.Nodup := by decide
    exact hnodup
  · rw [membersUnique_eq_all]
    simp [firmwareMembers, tightMember, hmeasured, qualityTree_unique, Tree.uniqueKeys]

/-- Devices send no receipt time. -/
theorem firmware_omits (event : Firmware.TelemetryEvent) (celsius : FiniteFloat) :
    receiptKey ∉ (firmwareTree event celsius).value.members.map Prod.fst := by
  have hnames : (Value.object (firmwareFields event celsius)).members.map Prod.fst =
      Telemetry.eventFields := rfl
  rw [firmwareTree_value, hnames]
  decide

section Firmware

variable {deviceId bootId : Backend.Identifier} {pending : QueuedReading} {celsius : FiniteFloat}
  {now : Option CalendarTime} {event : Firmware.TelemetryEvent}
  (hdevice : event.deviceId.text = deviceId.text) (hboot : event.bootId.text = bootId.text)
  (hsequence : event.sequenceNumber = pending.sequenceNumber)
  (huptime : event.deviceUptimeMs = pending.deviceUptimeMs)
  (hnow : event.measuredAt.text = measuredAtText now)
  {receivedAt : Bytes} {instant : Int} (hreceived : Rfc3339.instantOf receivedAt = some instant)

include hdevice hboot hsequence huptime hnow hreceived

/-- Every field the backend checks reads as the expected one. -/
theorem firmware_reads : Backend.EventFields
    (backendEvent (firmwareTree event celsius).value receivedAt)
    (expectedEvent deviceId bootId pending celsius now instant) := by
  -- What the gateway adds and drops hides no field that the firmware wrote.
  have hget {name : String} {v : Value} (hschema : ascii name ≠ schemaKey)
      (hreceipt : ascii name ≠ receiptKey)
      (hv : (Value.object (firmwareFields event celsius)).get? (ascii name) = some v) :
      (backendEvent (firmwareTree event celsius).value receivedAt).get? (ascii name) = some v := by
    rw [get?_backendEvent _ _ hschema hreceipt, firmwareTree_value]
    exact hv
  refine ⟨⟨_, rfl⟩, ?_, ⟨_, hget (by decide) (by decide) rfl, ?_⟩,
    ⟨_, hget (by decide) (by decide) rfl, ?_⟩, ⟨_, hget (by decide) (by decide) rfl, ?_⟩,
    ⟨_, hget (by decide) (by decide) rfl, ?_⟩, ⟨_, hget (by decide) (by decide) rfl, ?_⟩,
    ⟨.string receivedAt, ?_, ?_⟩, ⟨_, hget (by decide) (by decide) rfl, rfl⟩,
    ⟨_, hget (by decide) (by decide) rfl, rfl⟩, ⟨_, hget (by decide) (by decide) rfl, rfl⟩,
    ⟨_, hget (by decide) (by decide) rfl, ?_⟩⟩
  · have hnames : (backendEvent (.object (firmwareFields event celsius)) receivedAt).members.map
        Prod.fst = [ascii "device_id", ascii "boot_id", ascii "sequence_number",
          ascii "measured_at", ascii "device_uptime_ms", ascii "metric", ascii "value",
          ascii "unit", ascii "quality", ascii "gateway_received_at"] := rfl
    have hknown : ∀ name ∈ [ascii "device_id", ascii "boot_id", ascii "sequence_number",
        ascii "measured_at", ascii "device_uptime_ms", ascii "metric", ascii "value",
        ascii "unit", ascii "quality", ascii "gateway_received_at"], name ∈ Backend.eventFields := by
      decide
    rw [firmwareTree_value, hnames]
    exact hknown
  · rw [hdevice]
    exact Backend.readIdentifier_text deviceId
  · rw [hboot]
    exact Backend.readIdentifier_text bootId
  · rw [hsequence]
    exact readCounter_natural _
  · rw [hnow]
    exact (readMeasuredAt_tree now).1
  · rw [huptime]
    exact readCounter_natural _
  · exact get?_backendEvent_receipt receivedAt (firmware_omits event celsius)
  · simp [Backend.readTimestamp, hreceived, expectedEvent]
  · rw [hnow]
    exact Backend.validateQuality_eq_valid.mp (validateQuality_tree now)

/-- The text of an event satisfies the contract. -/
theorem contractValid_firmware (hlevel : Telemetry.isOneLevel deviceId.text = true)
    (hsize : (renderElement (tight (firmwareTree event celsius))).length ≤ Telemetry.maxPayloadBytes) :
    ContractValid (tight (firmwareTree event celsius)) receivedAt
      (expectedEvent deviceId bootId pending celsius now instant) where
  unique := firmwareTree_unique event celsius
  version := ⟨oneLiteral, by rw [tight, firmwareTree_value]; rfl, rfl, rfl⟩
  omits := firmware_omits event celsius
  accepts := Backend.validateEvent_eq_valid.mpr
    (firmware_reads hdevice hboot hsequence huptime hnow hreceived)
  oneLevel := hlevel
  size := hsize

end Firmware

/-! ## Contract-Valid Events at the Backend -/

/-- The gateway forwards what it has accepted, and the backend loads it, as far as it loads the
numbers. -/
theorem ContractValid.forwards [Nlohmann.Library] {doc : Element Tree} {receivedAt : Bytes}
    {event : Backend.TelemetryEvent} (h : ContractValid doc receivedAt event)
    (hdevice : event.deviceId.text.length ≤ 128) (hboot : event.bootId.text.length ≤ 128)
    (hvalue : RoundsFinite event.value) (hnumbers : doc.value.accepted Backend.dialect = true)
    (python : Backend.Interpreter) :
    ∃ out, backendEventJson ⟨event.deviceId.text, event.bootId.text, event.sequenceNumber.value,
        renderElement doc, receivedAt⟩ = .ok out ∧
      Backend.loads python out = some (backendEvent doc.value.value receivedAt) := by
  obtain ⟨src⟩ := Telemetry.exists_source (h.parse_eq hdevice hboot hvalue)
  -- the source is the spelling itself
  have hsame := renderElement_injective (src.text.trans h.skipBom_render)
  have htree : doc.value = .object src.first src.rest := (congrArg Element.value hsame).symm
  have hreceived : Utf8.valid receivedAt = true := by
    obtain ⟨v, hv, hread⟩ := h.fields.gatewayReceivedAt
    have hget := get?_backendEvent_receipt receivedAt h.omits
    obtain ⟨x, hx, -⟩ := Backend.readTimestamp_eq_ok hread
    obtain rfl := Option.some.inj (hv.symm.trans hget)
    rw [Value.string.inj hx]
    exact x.valid_render
  rw [htree, Tree.accepted_object, List.all_eq_true] at hnumbers
  have hloadable : Loadable 0 (forwardedTree src.members receivedAt) := by
    refine forwardedTree_loadable src hreceived (fun m hm => ?_) fun m hm => ?_
    · exact (Bool.and_eq_true _ _ ▸ hnumbers m hm).2
    · have hheight := (h.readable_member hvalue htree hm).height
      omega
  refine ⟨_, (backendEventJson_source src h.skipBom_render).trans (if_pos hreceived), ?_⟩
  rw [loads_render_tight hloadable, value_forwarded, ← htree]

/-! ## Firmware Events -/

/-- The numbers of an event load. -/
theorem firmwareTree_loads {event : Firmware.TelemetryEvent} {celsius : FiniteFloat}
    (hsequence : 0 ≤ event.sequenceNumber.toInt) (huptime : 0 ≤ event.deviceUptimeMs.toInt)
    (hrange : -55 ≤ celsius.toRat ∧ celsius.toRat ≤ 125) :
    (firmwareTree event celsius).accepted Backend.dialect = true := by
  have hnatural {i : Int64} (hi : 0 ≤ i.toInt) :
      Backend.dialect.number (naturalLiteral i.toInt.toNat) = true := by
    have hlt := i.toInt_lt
    have hlength := length_decimal (by decide : 0 < 19) (by omega : i.toInt.toNat < 10 ^ 19)
    exact decide_eq_true (hlength.trans (by decide))
  -- Four decimals of a value within the range are far inside the exact decimals.
  have hvalue : Backend.dialect.number (fixed4Literal celsius) = true := by
    have hle := tenThousandths_le hrange
    have hlog : Nat.log 10 celsius.tenThousandths ≤ 7 :=
      (Nat.log_mono_right hle).trans (by decide)
    have hint : (fixed4Literal celsius).isIntegral = false := rfl
    simp only [Backend.dialect, hint]
    rw [if_neg (by simp)]
    rw [Backend.exactDecimal, Backend.adjusted, fixed4Literal_exponent, fixed4Literal_coefficient,
      Backend.countDigits, Bool.and_eq_true, decide_eq_true_eq, decide_eq_true_eq]
    simp only [Backend.minEtiny, Backend.maxEmax]
    omega
  have hmeasured : (measuredAtTree event.measuredAt.text).accepted Backend.dialect = true := by
    unfold measuredAtTree
    split <;> rfl
  have hquality : (qualityTree event.measuredAt.text).accepted Backend.dialect = true := rfl
  have hone : Backend.dialect.number oneLiteral = true := rfl
  have hstring (l : Literal) : (Tree.string l).accepted Backend.dialect = true := rfl
  rw [firmwareTree, Tree.accepted_object, List.all_eq_true]
  intro m hm
  rw [Bool.and_eq_true]
  refine ⟨rfl, ?_⟩
  simp only [firmwareMembers, List.mem_cons, List.not_mem_nil, or_false] at hm
  rcases hm with rfl | rfl | rfl | rfl | rfl | rfl | rfl | rfl | rfl | rfl
  · exact hone
  · exact hstring _
  · exact hstring _
  · exact hnatural hsequence
  · exact hmeasured
  · exact hnatural huptime
  · exact hstring _
  · exact hvalue
  · exact hstring _
  · exact hquality

/-- Every event the firmware publishes is accepted by the gateway as it was meant, and forwarded so
that the backend reads the values the device has measured. -/
theorem firmware_event_understood [Nlohmann.Library] (settings config : AppConfig)
    (hconfig : appConfigLoad settings = .ok config)
    (hutf8 : Utf8.valid config.deviceId.text = true) (mac : Mac) (calls : BootCalls)
    (stored stored' : Option UInt64) (bootId : CString)
    (hboot : bootIdCreate mac calls stored = (.ok bootId.text, stored'))
    (pending : QueuedReading) (celsius : FiniteFloat) (hsubmitted : Submitted pending celsius)
    (now : Option CalendarTime) (hnow : pending.measuredAt.text = measuredAtText now)
    (receivedAt : Bytes) (instant : Int) (hreceived : Rfc3339.instantOf receivedAt = some instant)
    (python : Backend.Interpreter) :
    ∃ topic w accepted out value event,
      telemetryTopic config.deviceId.text = some topic ∧
      telemetryEncode (eventOf config.deviceId bootId pending) payloadSize = .ok w ∧
      Telemetry.parse topic w.text receivedAt = .ok accepted ∧
      accepted.deviceId = config.deviceId.text ∧ accepted.bootId = bootId.text ∧
      accepted.sequenceNumber = pending.sequenceNumber.toInt ∧
      backendEventJson accepted = .ok out ∧ Backend.loads python out = some value ∧
      Backend.validateEvent value = .valid event ∧
      event.deviceId.text = config.deviceId.text ∧ event.bootId.text = bootId.text ∧
      event.sequenceNumber.value = pending.sequenceNumber.toInt ∧
      event.deviceUptimeMs.value = pending.deviceUptimeMs.toInt ∧
      event.gatewayReceivedAt = instant ∧ event.measuredAt = readingTime now ∧
      (event.quality.clock = .synchronised ↔ event.measuredAt.isSome = true) ∧
      ∃ k, RoundsTo (celsius.toRat * 10 ^ 4) k ∧ event.value.toRat = k / 10 ^ 4 := by
  obtain ⟨rfl, hdevice⟩ := appConfigLoad_eq_ok hconfig
  obtain ⟨counter, hbootText⟩ := bootIdCreate_eq_ok hboot
  obtain rfl : bootId = bootIdString mac counter := CString.ext hbootText
  obtain ⟨-, hlength, hlevel, -⟩ := deviceIdText hdevice
  obtain ⟨sent, hsent⟩ : ∃ e, e = eventOf config.deviceId (bootIdString mac counter) pending :=
    ⟨_, rfl⟩
  have hencode : telemetryEncode sent payloadSize =
      .ok (holding payloadSize (encoding sent celsius)) :=
    hsent ▸ telemetryEncode_reading hdevice hsubmitted
  have hfits : (encoding sent celsius).length < payloadSize :=
    hsent ▸ length_encoding_reading hdevice hsubmitted
  have hsequence' : 0 ≤ sent.sequenceNumber.toInt := hsent ▸ hsubmitted.sequence
  have huptime' : 0 ≤ sent.deviceUptimeMs.toInt := hsent ▸ hsubmitted.uptime
  -- the published text renders the tree of the event
  have hrender : renderElement (tight (firmwareTree sent celsius)) = encoding sent celsius := by
    rw [← firmwareTree_render celsius hsequence' huptime']
    simp [renderElement, tight, Space.none]
  have honelevel : Telemetry.isOneLevel config.deviceId.text = true := by
    rw [Telemetry.isOneLevel, List.all_eq_true]
    intro b hb
    simpa [and_assoc] using hlevel b hb
  have hcontract : ContractValid (tight (firmwareTree sent celsius)) receivedAt
      (expectedEvent ⟨_, isIdentifier_deviceId hdevice hutf8⟩ ⟨_, isIdentifier_bootId mac counter⟩
        pending celsius now instant) := by
    subst hsent
    refine contractValid_firmware rfl rfl rfl rfl hnow hreceived honelevel ?_
    rw [hrender]
    exact hfits.le.trans (by decide)
  have hboot128 : (bootIdText mac counter).length ≤ 128 := by
    rw [length_bootIdText]
    decide
  have hfinite := fixed4Literal_finite hsubmitted.range
  have hparse := hcontract.parse_eq hlength hboot128 hfinite
  obtain ⟨out, hout, hloads⟩ := hcontract.forwards hlength hboot128 hfinite
    (firmwareTree_loads hsequence' huptime' hsubmitted.range) python
  rw [← hsent]
  refine ⟨_, _, _, out, _, _, telemetryTopic_eq hlength, hencode, ?_, rfl, rfl,
    counterOfInt64_value hsubmitted.sequence, hout, hloads, hcontract.accepts, rfl, rfl,
    counterOfInt64_value hsubmitted.sequence, counterOfInt64_value hsubmitted.uptime, rfl, rfl,
    clockQuality_synchronised _, _, fixed4Literal_rounds celsius⟩
  rw [holding_text (encoding_noNul sent celsius), ← hrender]
  exact hparse

theorem firmware_event_understood_sample : ∃ topic w accepted,
    telemetryTopic (ascii "pump \"7\"") = some topic ∧
      telemetryEncode (eventOf sampleSettings.deviceId (bootIdString sampleMac 8)
        (newReading (.finite sampleCelsius) sampleClocks 0)) payloadSize = .ok w ∧
      Telemetry.parse topic w.text Telemetry.sampleReceivedAt = .ok accepted := by
  have hrange : -55 ≤ sampleCelsius.toRat ∧ sampleCelsius.toRat ≤ 125 := by
    norm_num [FiniteFloat.toRat, sampleCelsius]
  have hboot : bootIdCreate sampleMac sampleBoot (some 7) =
      (.ok (bootIdString sampleMac 8).text, some 8) := by rfl
  have hsequence : identityNextSequence ⟨bootIdText sampleMac 8, 0⟩ =
      (some 0, ⟨bootIdText sampleMac 8, 1⟩) := rfl
  have hsubmitted : Submitted (newReading (.finite sampleCelsius) sampleClocks 0) sampleCelsius :=
    newReading_submitted hsequence (by decide) hrange
  obtain ⟨topic, w, accepted, out, value, event, htopic, hencode, hparse, -⟩ :=
    firmware_event_understood sampleSettings sampleSettings rfl (by decide) sampleMac sampleBoot
      (some 7) (some 8) (bootIdString sampleMac 8) hboot _ sampleCelsius hsubmitted
      sampleClocks.now rfl Telemetry.sampleReceivedAt 63902822400000000 (by decide) ⟨64, by decide⟩
  exact ⟨topic, w, accepted, htopic, hencode, hparse⟩

end EquipmentMonitoring.Exchange
