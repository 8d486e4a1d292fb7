import EquipmentMonitoring.Firmware.AppConfig
import EquipmentMonitoring.Foundations.Rfc3339

/-!
# Readings of a Device (`telemetry.c`)

A reading gets its number and its times when it is submitted, and waits in a queue. Its text is
written once, when the publisher takes it up.

## Key Results

- `telemetryTopic_eq`: the topic of an accepted device id fits its buffer
- `encode_reading`: so does the text of any reading in range
-/

namespace EquipmentMonitoring.Firmware

/-! ## Times -/

/-- What `gettimeofday` and `gmtime_r` report: a time of the calendar, in UTC. -/
structure CalendarTime where
  year : Int
  month : Nat
  day : Nat
  hour : Nat
  minute : Nat
  second : Nat
  microsecond : Nat
  day_range : 1 ≤ day ∧ day ≤ Rfc3339.monthDays year.toNat month
  hour_le : hour ≤ 23
  minute_le : minute ≤ 59
  second_le : second ≤ 59
  microsecond_lt : microsecond < 1000000

/-- `%04d-%02d-%02dT%02d:%02d:%02d.%03ldZ`, for a year of four digits. -/
def CalendarTime.text (t : CalendarTime) : Bytes :=
  numeral 10 4 t.year.toNat ++ 0x2D :: numeral 10 2 t.month ++ 0x2D :: numeral 10 2 t.day ++
    0x54 :: numeral 10 2 t.hour ++ 0x3A :: numeral 10 2 t.minute ++ 0x3A :: numeral 10 2 t.second ++
    0x2E :: numeral 10 3 (t.microsecond / 1000) ++ [0x5A]

/-- `sizeof(measured_at)`. -/
def measuredAtSize : Nat := 32

/-- The measurement time a reading is given; empty without a clock, or with one set to a year that
cannot be right. -/
def measuredAtText : Option CalendarTime → Bytes
  | none => []
  | some now =>
    if 2020 ≤ now.year ∧ now.year ≤ 9999 then
      if measuredAtSize ≤ now.text.length then [] else now.text
    else []

/-! ## Readings -/

/-- `queued_reading_t`. -/
structure QueuedReading where
  sequenceNumber : Int64
  deviceUptimeMs : Int64
  celsius : Binary32
  measuredAt : CString

/-- What the clocks say when a reading is submitted. -/
structure Clocks where
  timerUs : Int64
  /-- The time of day, when it has been synchronised and can be read. -/
  now : Option CalendarTime

theorem numeral_noNul {base : Nat} (hpos : 0 < base) (hbase : base ≤ 16) (width n : Nat) :
    0 ∉ numeral base width n := fun h =>
  absurd (mem_numeral hpos hbase h).1 (by decide)

theorem text_noNul (t : CalendarTime) : 0 ∉ t.text := by
  simp [CalendarTime.text, numeral_noNul]

theorem measuredAtText_noNul (now : Option CalendarTime) : 0 ∉ measuredAtText now := by
  unfold measuredAtText
  split
  · simp
  · split
    · split
      · simp
      · exact text_noNul _
    · simp

/-- The reading that is queued for a sequence number. -/
def newReading (celsius : Binary32) (clocks : Clocks) (sequenceNumber : Int64) : QueuedReading :=
  ⟨sequenceNumber, clocks.timerUs / 1000, celsius, ⟨measuredAtText clocks.now, measuredAtText_noNul _⟩⟩

/-- The event the publisher makes of a reading. -/
def eventOf (deviceId bootId : CString) (pending : QueuedReading) : TelemetryEvent :=
  ⟨deviceId, bootId, pending.sequenceNumber, pending.deviceUptimeMs, pending.celsius,
    pending.measuredAt⟩

/-- `sizeof(payload)`. -/
def payloadSize : Nat := 768

/-- `sizeof(s_topic)`. -/
def topicSize : Nat := 149

/-- `s_topic`, if it fits. -/
def telemetryTopic (deviceId : Bytes) : Option Bytes :=
  let topic := ascii "equipment/" ++ deviceId ++ ascii "/telemetry"
  if topicSize ≤ topic.length then none else some topic

theorem telemetryTopic_eq {deviceId : Bytes} (h : deviceId.length ≤ 128) :
    telemetryTopic deviceId = some (ascii "equipment/" ++ deviceId ++ ascii "/telemetry") := by
  have hbefore : (ascii "equipment/").length = 10 := rfl
  have hafter : (ascii "/telemetry").length = 10 := rfl
  have hlength : (ascii "equipment/" ++ deviceId ++ ascii "/telemetry").length = 20 + deviceId.length := by
    rw [List.length_append, List.length_append, hbefore, hafter]
    omega
  rw [telemetryTopic, if_neg]
  rw [hlength, topicSize]
  omega

/-! ## Lengths -/

theorem length_signedDecimal {i : Int64} (h : 0 ≤ i.toInt) : (signedDecimal i).length ≤ 19 := by
  rw [signedDecimal, if_neg (by omega)]
  have hlt := i.toInt_lt
  exact length_decimal (by decide) (by omega)

/-- The rounded magnitude of a reading in range. -/
theorem tenThousandths_le {x : FiniteFloat} (h : -55 ≤ x.toRat ∧ x.toRat ≤ 125) :
    x.tenThousandths ≤ 1250000 := by
  have habs : |x.toRat| ≤ 125 := abs_le.mpr ⟨by linarith [h.1], h.2⟩
  have hnear := (abs_le.mp x.tenThousandths_roundsTo.nearest).1
  have hle : (x.tenThousandths : ℚ) < 1250001 := by
    rw [Int.cast_natCast] at hnear
    linarith
  have hlt : x.tenThousandths < 1250001 := by exact_mod_cast hle
  omega

theorem length_fixed4 {x : FiniteFloat} (h : -55 ≤ x.toRat ∧ x.toRat ≤ 125) :
    (fixed4 x).length ≤ 9 := by
  have hle := tenThousandths_le h
  have hdecimal : (decimal (x.tenThousandths / 10 ^ 4)).length ≤ 3 :=
    length_decimal (by decide) (by omega)
  have hsign : (if x.negative then [(0x2D : UInt8)] else []).length ≤ 1 := by split <;> simp
  simp only [fixed4, List.length_append, List.length_cons, length_numeral]
  omega

theorem length_jsonString_le {text : Bytes} {width : Nat}
    (h : ∀ b ∈ text, (escapedByte b).length ≤ width) :
    (jsonString text).length ≤ 2 + width * text.length := by
  have hflat := length_flatMap_le h
  rw [jsonString, List.length_cons, List.length_append, List.length_singleton]
  omega

/-- A character that is no control character takes two octets at most. -/
theorem length_escapedByte_printable {b : UInt8} (h : 0x20 ≤ b) : (escapedByte b).length ≤ 2 := by
  unfold escapedByte
  split
  · simp
  · rw [if_neg (UInt8.not_lt.mpr h)]
    simp

/-! ## No Text Ends Early -/

theorem escapedByte_noNul {b : UInt8} (h : b ≠ 0) : 0 ∉ escapedByte b := by
  have hall := Utf8.forall_octet (p := fun b => decide (b ≠ 0 → 0 ∉ escapedByte b))
    (by decide +kernel) b
  exact of_decide_eq_true hall h

theorem jsonString_noNul (s : CString) : 0 ∉ jsonString s.text := by
  have hflat : 0 ∉ s.text.flatMap escapedByte := by
    intro h
    obtain ⟨b, hb, hmem⟩ := List.mem_flatMap.mp h
    exact escapedByte_noNul (fun hzero => s.noNul (hzero ▸ hb)) hmem
  simp [jsonString, hflat]

theorem decimal_noNul (n : Nat) : 0 ∉ decimal n := numeral_noNul (by decide) (by decide) _ n

theorem signedDecimal_noNul (i : Int64) : 0 ∉ signedDecimal i := by
  unfold signedDecimal
  split
  · simp [decimal_noNul]
  · exact decimal_noNul _

theorem fixed4_noNul (x : FiniteFloat) : 0 ∉ fixed4 x := by
  have hsign : 0 ∉ (if x.negative then [(0x2D : UInt8)] else []) := by split <;> simp
  simp [fixed4, hsign, decimal_noNul, numeral_noNul]

theorem encoding_noNul (event : TelemetryEvent) (x : FiniteFloat) : 0 ∉ encoding event x := by
  have hclock : 0 ∉ clockText event.measuredAt.text := by
    unfold clockText
    split <;> decide
  have hmeasured : 0 ∉ measuredAtJson event.measuredAt.text := by
    unfold measuredAtJson
    split
    · decide
    · exact jsonString_noNul _
  have htail : 0 ∉ eventTail event x := by
    simp only [eventTail, List.mem_append, not_or]
    exact ⟨⟨⟨⟨⟨⟨by decide, signedDecimal_noNul _⟩, by decide⟩, fixed4_noNul x⟩, by decide⟩, hclock⟩,
      by decide⟩
  simp only [encoding, List.mem_append, not_or]
  exact ⟨by decide, jsonString_noNul _, by decide, jsonString_noNul _,
    ⟨⟨by decide, signedDecimal_noNul _⟩, by decide⟩, hmeasured, htail⟩

theorem holding_text {capacity : Nat} {text : Bytes} (h : 0 ∉ text) :
    (holding capacity text).text = text := by
  unfold holding Writer.text
  split
  · next hnil => rw [hnil]; rfl
  · have hall : ∀ b ∈ text, decide (b ≠ 0) = true := fun b hb =>
      decide_eq_true fun hzero => h (hzero ▸ hb)
    rw [List.takeWhile_append_of_pos hall]
    simp

/-! ## Any Reading Fits -/

theorem bootIdText_range {mac : Mac} {counter : UInt64} {b : UInt8} (hb : b ∈ bootIdText mac counter) :
    0x2D ≤ b ∧ b ≤ 0x66 := by
  have hdigit {width n : Nat} (h : b ∈ numeral 16 width n) : 0x2D ≤ b ∧ b ≤ 0x66 :=
    have hmem := mem_numeral (by decide) (Nat.le_refl _) h
    ⟨UInt8.le_trans (by decide) hmem.1, hmem.2⟩
  simp only [bootIdText, List.mem_append, List.mem_flatMap, List.mem_cons] at hb
  rcases hb with ⟨c, -, hc⟩ | rfl | h
  · exact hdigit hc
  · decide
  · exact hdigit h

/-- The boot id as the identity holds it. -/
def bootIdString (mac : Mac) (counter : UInt64) : CString :=
  ⟨bootIdText mac counter, fun h => absurd (bootIdText_range h).1 (by decide)⟩

/-- A reading as `telemetry_submit_temperature` queues it for a value in range. -/
structure Submitted (pending : QueuedReading) (celsius : FiniteFloat) : Prop where
  sequence : 0 ≤ pending.sequenceNumber.toInt
  uptime : 0 ≤ pending.deviceUptimeMs.toInt
  value : pending.celsius = .finite celsius
  range : -55 ≤ celsius.toRat ∧ celsius.toRat ≤ 125
  measuredAt : ∃ now, pending.measuredAt.text = measuredAtText now

theorem length_calendarText (t : CalendarTime) : t.text.length = 24 := by
  simp [CalendarTime.text]

theorem measuredAtText_cases (now : Option CalendarTime) :
    measuredAtText now = [] ∨
      ∃ t, now = some t ∧ 2020 ≤ t.year ∧ t.year ≤ 9999 ∧ measuredAtText now = t.text := by
  cases now with
  | none => exact .inl rfl
  | some t =>
    by_cases hyear : 2020 ≤ t.year ∧ t.year ≤ 9999
    · refine .inr ⟨t, rfl, hyear.1, hyear.2, ?_⟩
      rw [measuredAtText, if_pos hyear, if_neg (by rw [length_calendarText]; decide)]
    · exact .inl (by rw [measuredAtText, if_neg hyear])

theorem calendarText_printable {t : CalendarTime} {b : UInt8} (hb : b ∈ t.text) : 0x20 ≤ b := by
  have hdigit {width n : Nat} (h : b ∈ numeral 10 width n) : 0x20 ≤ b :=
    UInt8.le_trans (by decide) (mem_numeral (by decide) (by decide) h).1
  simp only [CalendarTime.text, List.mem_append, List.mem_cons, List.not_mem_nil, or_false] at hb
  rcases hb with ((((((h | rfl | h) | rfl | h) | rfl | h) | rfl | h) | rfl | h) | rfl | h) | rfl
  all_goals first | exact hdigit h | decide

section Encode

variable {deviceId : CString} {mac : Mac} {counter : UInt64} {pending : QueuedReading}
  {celsius : FiniteFloat} (hdevice : isDeviceId deviceId.text = true)
  (h : Submitted pending celsius)

include hdevice h

theorem encodable_reading :
    encodable (eventOf deviceId (bootIdString mac counter) pending) = some celsius := by
  obtain ⟨hne, hlength, -, -⟩ := deviceIdText hdevice
  have hboot : (bootIdString mac counter).text.length = 29 := length_bootIdText mac counter
  have hbootne : (bootIdString mac counter).text ≠ [] := List.ne_nil_of_length_pos (by omega)
  exact encodable_eq_some.mpr ⟨⟨hne, hlength⟩, ⟨hbootne, hboot.le.trans (by decide)⟩, h.sequence,
    h.uptime, h.value, h.range⟩

theorem length_encoding_reading :
    (encoding (eventOf deviceId (bootIdString mac counter) pending) celsius).length < payloadSize := by
  obtain ⟨-, hlength, -, hprintable⟩ := deviceIdText hdevice
  have hid := length_jsonString_le fun b hb => length_escapedByte_printable (hprintable b hb).1
  have hboot := length_jsonString_le fun b (hb : b ∈ bootIdText mac counter) =>
    length_escapedByte_printable (UInt8.le_trans (by decide) (bootIdText_range hb).1)
  rw [length_bootIdText] at hboot
  -- A device id is printable, and a clock text has one length: every field is bounded.
  have hmeasured : (measuredAtJson pending.measuredAt.text).length ≤ 50 := by
    unfold measuredAtJson
    split
    · decide
    · next hne =>
      obtain ⟨now, hnow⟩ := h.measuredAt
      rcases measuredAtText_cases now with hnil | ⟨t, -, -, -, ht⟩
      · exact absurd (hnow.trans hnil) hne
      · have htext := length_jsonString_le fun b (hb : b ∈ t.text) =>
          length_escapedByte_printable (calendarText_printable hb)
        rw [length_calendarText] at htext
        rwa [hnow, ht]
  have hsequence := length_signedDecimal h.sequence
  have huptime := length_signedDecimal h.uptime
  have hvalue := length_fixed4 h.range
  have hclock : (clockText pending.measuredAt.text).length ≤ 14 := by
    unfold clockText
    split <;> decide
  rw [length_encoding, payloadSize]
  simp only [eventOf, bootIdString]
  omega

theorem telemetryEncode_reading :
    telemetryEncode (eventOf deviceId (bootIdString mac counter) pending) payloadSize =
      .ok (holding payloadSize (encoding (eventOf deviceId (bootIdString mac counter) pending)
        celsius)) :=
  telemetryEncode_eq_ok.mpr
    ⟨celsius, encodable_reading hdevice h, length_encoding_reading hdevice h, rfl⟩

end Encode

/-- A reading submitted for a value in range. -/
theorem newReading_submitted {identity identity' : IdentityContext} {sequence : Int64}
    (hsequence : identityNextSequence identity = (some sequence, identity')) {clocks : Clocks}
    (huptime : 0 ≤ clocks.timerUs.toInt) {celsius : FiniteFloat}
    (hrange : -55 ≤ celsius.toRat ∧ celsius.toRat ≤ 125) :
    Submitted (newReading (.finite celsius) clocks sequence) celsius where
  sequence := by
    rcases identityNextSequence_cases identity with ⟨-, h⟩ | ⟨-, s, i, h, hs, -⟩
    · rw [h] at hsequence
      simp at hsequence
    · rw [h] at hsequence
      obtain rfl := Option.some.inj (Prod.mk.inj hsequence).1
      exact hs ▸ Int.natCast_nonneg _
  uptime := by
    have hthousand : (1000 : Int64).toInt = 1000 := rfl
    have hlt := clocks.timerUs.toInt_lt
    have hpos : 0 ≤ clocks.timerUs.toInt.tdiv 1000 := Int.tdiv_nonneg huptime (by decide)
    -- dividing by a thousand brings the counter no nearer to overflow
    have hle : clocks.timerUs.toInt.tdiv 1000 ≤ clocks.timerUs.toInt := by
      rw [Int.tdiv_eq_ediv_of_nonneg huptime]
      exact Int.ediv_le_self _ huptime
    simp only [newReading, Int64.toInt_div, hthousand]
    rw [Int.bmod_eq_of_le (by omega) (by omega)]
    exact hpos
  value := rfl
  range := hrange
  measuredAt := ⟨clocks.now, rfl⟩

/-! ## A Reading -/

def sampleString (text : String) (h : 0 ∉ ascii text) : CString := ⟨ascii text, h⟩

def sampleSettings : AppConfig where
  deviceId := sampleString "pump \"7\"" (by decide)
  wifiSsid := sampleString "plant" (by decide)
  wifiPassword := sampleString "password" (by decide)
  mqttHost := sampleString "gateway" (by decide)
  mqttPort := 1883
  mqttPassword := sampleString "secret" (by decide)
  backendHost := sampleString "" (by decide)
  backendPort := 8000
  webInputKey := none

def sampleMac : Mac := ⟨[0xAA, 0xBB, 0xCC, 0xDD, 0xEE, 0xFF], rfl⟩

def sampleBoot : BootCalls := ⟨.ok, .ok, .ok, .ok, .ok, .ok, true⟩

/-- -12.0625. -/
def sampleCelsius : FiniteFloat := ⟨true, 193, -4, by decide, by decide⟩

def sampleClocks : Clocks :=
  ⟨5000000, some ⟨2026, 9, 29, 0, 0, 0, 123456, by decide, by decide, by decide, by decide, by decide⟩⟩

end EquipmentMonitoring.Firmware
