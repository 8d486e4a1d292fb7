import EquipmentMonitoring.Firmware.Identity
import EquipmentMonitoring.Foundations.Rounding

/-!
# Event Texts (`telemetry_encoding.c`)

An event is written into a buffer of a given capacity, piece by piece. A piece that does not fit
ends the encoding; what has been written of it, and of the pieces before it, stays in the buffer.

## Layers

- `Binary32`: the readings, `fixed4` their four-digit texts
- `Writer`: a buffer with its cursor
- `telemetryEncode`: the function of the source
- `encoding`, `telemetryEncode_eq_ok`: the whole text, and when it is written
-/

namespace EquipmentMonitoring.Firmware

/-! ## Readings -/

/-- A finite `float`: `± significand * 2 ^ exponent`. -/
structure FiniteFloat where
  negative : Bool
  significand : Nat
  exponent : Int
  significand_lt : significand < 2 ^ 24
  exponent_range : -149 ≤ exponent ∧ exponent ≤ 104

/-- A `float`. -/
inductive Binary32 where
  | finite (x : FiniteFloat)
  | infinite (negative : Bool)
  | nan

/-- The number a float stands for. -/
def FiniteFloat.toRat (x : FiniteFloat) : ℚ :=
  (if x.negative then -1 else 1) * (x.significand * 2 ^ x.exponent)

/-- The magnitude in units of `10 ^ -4`, rounded. -/
def FiniteFloat.tenThousandths (x : FiniteFloat) : Nat :=
  divRound (x.significand * 10 ^ 4 * 2 ^ x.exponent.toNat) (2 ^ (-x.exponent).toNat)

theorem FiniteFloat.abs_toRat (x : FiniteFloat) : |x.toRat| = x.significand * 2 ^ x.exponent := by
  have hmag : (0 : ℚ) ≤ x.significand * 2 ^ x.exponent := by positivity
  unfold FiniteFloat.toRat
  split
  · rw [neg_one_mul, abs_neg, abs_of_nonneg hmag]
  · rw [one_mul, abs_of_nonneg hmag]

theorem FiniteFloat.tenThousandths_roundsTo (x : FiniteFloat) :
    RoundsTo (|x.toRat| * 10 ^ 4) x.tenThousandths := by
  have hround := divRound_roundsTo (n := x.significand * 10 ^ 4 * 2 ^ x.exponent.toNat)
    (d := 2 ^ (-x.exponent).toNat) (Nat.pow_pos (by decide))
  have hpow : (2 : ℚ) ^ x.exponent * 2 ^ (-x.exponent).toNat = 2 ^ x.exponent.toNat := by
    rw [← zpow_natCast, ← zpow_natCast, ← zpow_add₀ (by norm_num)]
    congr 1
    omega
  have hvalue : ((x.significand * 10 ^ 4 * 2 ^ x.exponent.toNat : Nat) : ℚ) /
      (2 ^ (-x.exponent).toNat : Nat) = |x.toRat| * 10 ^ 4 := by
    rw [x.abs_toRat, div_eq_iff (by positivity)]
    push_cast
    rw [← hpow]
    ring
  rwa [hvalue] at hround

/-- `%.4f`; the sign is printed for a negative zero too. -/
def fixed4 (x : FiniteFloat) : Bytes :=
  (if x.negative then [0x2D] else []) ++ decimal (x.tenThousandths / 10 ^ 4) ++
    0x2E :: numeral 10 4 x.tenThousandths

/-- `%lld`. -/
def signedDecimal (i : Int64) : Bytes :=
  if i.toInt < 0 then 0x2D :: decimal i.toInt.natAbs else decimal i.toInt.natAbs

/-! ## Buffers -/

/-- A text without its terminating zero. -/
@[ext]
structure CString where
  text : Bytes
  noNul : 0 ∉ text

/-- A buffer: the octets written from its beginning on, the place of the cursor, and the room behind
it. -/
structure Writer where
  out : Bytes
  cursor : Nat
  remaining : Nat

/-- `append`: the text and a terminating zero, if they fit. -/
def append (w : Writer) (value : Bytes) : Except Writer Writer :=
  if w.remaining ≤ value.length then .error w
  else .ok ⟨w.out.take w.cursor ++ value ++ [0], w.cursor + value.length, w.remaining - value.length⟩

/-- `snprintf` with the check that follows it: what fits is written, and terminated. -/
def printFormatted (w : Writer) (value : Bytes) : Except Writer Writer :=
  if w.remaining ≤ value.length then
    .error { w with out := w.out.take w.cursor ++ (value.take (w.remaining - 1) ++ [0]).take w.remaining }
  else .ok ⟨w.out.take w.cursor ++ value ++ [0], w.cursor + value.length, w.remaining - value.length⟩

/-- The text of one character of a JSON string. -/
def escapedByte (b : UInt8) : Bytes :=
  if b = 0x22 ∨ b = 0x5C then [0x5C, b]
  else if b < 0x20 then ascii "\\u00" ++ numeral 16 2 b.toNat
  else [b]

/-- `append_json_string`: quote by quote and character by character. -/
def appendJsonString (w : Writer) (value : Bytes) : Except Writer Writer := do
  let w ← append w [0x22]
  let w ← value.foldlM (fun w b => append w (escapedByte b)) w
  append w [0x22]

/-! ## Events -/

/-- `telemetry_event_t`; the measurement time is empty where there is none. -/
structure TelemetryEvent where
  deviceId : CString
  bootId : CString
  sequenceNumber : Int64
  deviceUptimeMs : Int64
  celsius : Binary32
  measuredAt : CString

/-- The checks before anything is written, and the reading. -/
def encodable (event : TelemetryEvent) : Option FiniteFloat :=
  if event.deviceId.text = [] ∨ event.bootId.text = [] ∨ 128 < event.deviceId.text.length ∨
      128 < event.bootId.text.length ∨ event.sequenceNumber.toInt < 0 ∨
      event.deviceUptimeMs.toInt < 0 then
    none
  else
    -- isfinite comes before the range, so a NaN is refused here
    match event.celsius with
    | .finite x => if x.toRat < -55 ∨ 125 < x.toRat then none else some x
    | _ => none

/-- The clock is vouched for by a measurement time. -/
def clockText (measuredAt : Bytes) : Bytes :=
  if measuredAt = [] then ascii "unsynchronised" else ascii "synchronised"

/-- The end of an event, from the uptime on. -/
def eventTail (event : TelemetryEvent) (celsius : FiniteFloat) : Bytes :=
  ascii ",\"device_uptime_ms\":" ++ signedDecimal event.deviceUptimeMs ++
    ascii ",\"metric\":\"temperature\",\"value\":" ++ fixed4 celsius ++
    ascii ",\"unit\":\"celsius\",\"quality\":\x7b\"reading\":\"valid\",\"clock\":\"" ++
    clockText event.measuredAt.text ++
    ascii "\"\x7d\x7d"

/-- A measurement time, or null where there is none. -/
def appendMeasuredAt (w : Writer) (measuredAt : Bytes) : Except Writer Writer :=
  if measuredAt = [] then append w (ascii "null") else appendJsonString w measuredAt

/-- The pieces of an event, in turn. -/
def writeEvent (event : TelemetryEvent) (celsius : FiniteFloat) (w : Writer) :
    Except Writer Writer := do
  let w ← append w (ascii "\x7b\"schema_version\":1,\"device_id\":")
  let w ← appendJsonString w event.deviceId.text
  let w ← append w (ascii ",\"boot_id\":")
  let w ← appendJsonString w event.bootId.text
  let w ← printFormatted w
    (ascii ",\"sequence_number\":" ++ signedDecimal event.sequenceNumber ++ ascii ",\"measured_at\":")
  let w ← appendMeasuredAt w event.measuredAt.text
  printFormatted w (eventTail event celsius)

/-- `telemetry_encode`: the buffer, and whether it holds the event. -/
def telemetryEncode (event : TelemetryEvent) (capacity : Nat) : Except Writer Writer :=
  match encodable event with
  | none => .error ⟨[], 0, capacity⟩
  | some celsius =>
    if capacity = 0 then .error ⟨[], 0, capacity⟩
    else writeEvent event celsius ⟨[], 0, capacity⟩

/-- The text in a buffer, up to its terminating zero. -/
def Writer.text (w : Writer) : Bytes := w.out.takeWhile (· ≠ 0)

/-! ## The Whole Text -/

/-- The text of a JSON string. -/
def jsonString (value : Bytes) : Bytes := 0x22 :: (value.flatMap escapedByte ++ [0x22])

def measuredAtJson (measuredAt : Bytes) : Bytes :=
  if measuredAt = [] then ascii "null" else jsonString measuredAt

/-- The text of an event. -/
def encoding (event : TelemetryEvent) (celsius : FiniteFloat) : Bytes :=
  ascii "\x7b\"schema_version\":1,\"device_id\":" ++ (jsonString event.deviceId.text ++
    (ascii ",\"boot_id\":" ++ (jsonString event.bootId.text ++
      ((ascii ",\"sequence_number\":" ++ signedDecimal event.sequenceNumber ++
        ascii ",\"measured_at\":") ++
        (measuredAtJson event.measuredAt.text ++ eventTail event celsius)))))

theorem length_encoding (event : TelemetryEvent) (celsius : FiniteFloat) :
    (encoding event celsius).length = 188 + (jsonString event.deviceId.text).length +
      (jsonString event.bootId.text).length + (signedDecimal event.sequenceNumber).length +
      (measuredAtJson event.measuredAt.text).length + (signedDecimal event.deviceUptimeMs).length +
      (fixed4 celsius).length + (clockText event.measuredAt.text).length := by
  simp only [encoding, eventTail, List.length_append]
  simp only [ascii, List.length_map]
  simp
  omega

theorem encodable_eq_some {event : TelemetryEvent} {x : FiniteFloat} :
    encodable event = some x ↔
      (event.deviceId.text ≠ [] ∧ event.deviceId.text.length ≤ 128) ∧
      (event.bootId.text ≠ [] ∧ event.bootId.text.length ≤ 128) ∧
      0 ≤ event.sequenceNumber.toInt ∧ 0 ≤ event.deviceUptimeMs.toInt ∧
      event.celsius = .finite x ∧ -55 ≤ x.toRat ∧ x.toRat ≤ 125 := by
  unfold encodable
  constructor
  · intro h
    split at h
    · simp at h
    · next hfields =>
      simp only [not_or, not_lt] at hfields
      obtain ⟨hdevice, hboot, hdeviceLength, hbootLength, hsequence, huptime⟩ := hfields
      split at h
      · next y hy =>
        split at h
        · simp at h
        · next hrange =>
          obtain rfl := Option.some.inj h
          simp only [not_or, not_lt] at hrange
          exact ⟨⟨hdevice, hdeviceLength⟩, ⟨hboot, hbootLength⟩, hsequence, huptime, hy, hrange⟩
      · simp at h
  · rintro ⟨⟨hdevice, hdeviceLength⟩, ⟨hboot, hbootLength⟩, hsequence, huptime, hcelsius, hrange⟩
    -- the two range checks of the value stand in their own branch
    rw [if_neg, hcelsius]
    · simp only [if_neg (not_or.mpr ⟨not_lt.mpr hrange.1, not_lt.mpr hrange.2⟩)]
    · simp only [not_or, not_lt]
      exact ⟨hdevice, hboot, hdeviceLength, hbootLength, hsequence, huptime⟩

/-- A buffer that holds just the text written so far. -/
def holding (capacity : Nat) (text : Bytes) : Writer :=
  ⟨if text = [] then [] else text ++ [0], text.length, capacity - text.length⟩

/-- The step writes the text behind what a buffer holds, and fails exactly when it does not fit. -/
def Puts (capacity : Nat) (step : Writer → Except Writer Writer) (value : Bytes) : Prop :=
  ∀ text w, text.length < capacity →
    (step (holding capacity text) = .ok w ↔
      (text ++ value).length < capacity ∧ w = holding capacity (text ++ value))

section Puts

variable {capacity : Nat} {step step' : Writer → Except Writer Writer} {value value' : Bytes}

theorem take_holding (text : Bytes) :
    (holding capacity text).out.take (holding capacity text).cursor = text := by
  by_cases h : text = []
  · simp [holding, h]
  · simp [holding, h]

/-- Where the text fits, the buffer holds it too; where it does not, the step fails. -/
theorem puts_of_room (hvalue : value ≠ [])
    (hroom : ∀ w : Writer, value.length < w.remaining → step w =
      .ok ⟨w.out.take w.cursor ++ value ++ [0], w.cursor + value.length, w.remaining - value.length⟩)
    (hfull : ∀ w : Writer, w.remaining ≤ value.length → ∃ w', step w = .error w') :
    Puts capacity step value := by
  intro text w htext
  have hremaining : (holding capacity text).remaining = capacity - text.length := rfl
  have hcursor : (holding capacity text).cursor = text.length := rfl
  rw [List.length_append]
  rcases Nat.lt_or_ge value.length (capacity - text.length) with hlt | hle
  · -- with room left, the text that is held grows by the value
    have hnext : holding capacity (text ++ value) =
        ⟨text ++ value ++ [0], text.length + value.length, capacity - text.length - value.length⟩ := by
      have hne : text ++ value ≠ [] := by simp [hvalue]
      rw [holding, if_neg hne, List.length_append]
      congr 1
      omega
    rw [hroom _ (hremaining ▸ hlt), take_holding, hremaining, hcursor, ← hnext]
    constructor
    · intro h
      exact ⟨by omega, (Except.ok.inj h).symm⟩
    · rintro ⟨-, rfl⟩
      rfl
  · obtain ⟨w', hstep⟩ := hfull _ (hremaining ▸ hle)
    rw [hstep]
    constructor
    · intro h
      simp at h
    · rintro ⟨hlt, -⟩
      omega

theorem puts_append (hvalue : value ≠ []) : Puts capacity (append · value) value :=
  puts_of_room hvalue (fun w h => by rw [append, if_neg (by omega)])
    fun w h => ⟨w, by rw [append, if_pos h]⟩

theorem puts_printFormatted (hvalue : value ≠ []) : Puts capacity (printFormatted · value) value :=
  puts_of_room hvalue (fun w h => by rw [printFormatted, if_neg (by omega)])
    fun w h => ⟨_, by rw [printFormatted, if_pos h]⟩

theorem puts_done : Puts capacity pure [] := by
  intro text w htext
  rw [List.append_nil]
  constructor
  · intro h
    exact ⟨htext, (Except.ok.inj h).symm⟩
  · rintro ⟨-, rfl⟩
    rfl

theorem Puts.seq (h : Puts capacity step value) (h' : Puts capacity step' value') :
    Puts capacity (fun w => step w >>= step') (value ++ value') := by
  intro text w htext
  rw [except_bind_eq_ok, ← List.append_assoc]
  constructor
  · rintro ⟨w', hstep, hstep'⟩
    obtain ⟨hfits, rfl⟩ := (h text w' htext).mp hstep
    exact (h' _ w hfits).mp hstep'
  · rintro ⟨hfits, rfl⟩
    have hfirst : (text ++ value).length < capacity := by
      rw [List.length_append] at hfits
      omega
    exact ⟨_, (h text _ htext).mpr ⟨hfirst, rfl⟩, (h' _ _ hfirst).mpr ⟨hfits, rfl⟩⟩

theorem puts_foldlM {f : UInt8 → Bytes} (hf : ∀ b, f b ≠ []) (text : Bytes) :
    Puts capacity (text.foldlM (fun w b => append w (f b))) (text.flatMap f) := by
  induction text with
  | nil => exact puts_done
  | cons b rest ih =>
    rw [List.flatMap_cons]
    simp only [List.foldlM_cons]
    exact (puts_append (hf b)).seq ih

theorem puts_jsonString (text : Bytes) :
    Puts capacity (appendJsonString · text) (jsonString text) := by
  have hescaped (b : UInt8) : escapedByte b ≠ [] := by
    unfold escapedByte
    split
    · simp
    · split <;> simp [ascii]
  have hquote : Puts capacity (append · [0x22]) [0x22] := puts_append (by simp)
  exact hquote.seq ((puts_foldlM hescaped text).seq hquote)

theorem puts_measuredAt (text : Bytes) :
    Puts capacity (appendMeasuredAt · text) (measuredAtJson text) := by
  by_cases htext : text = []
  · simp only [appendMeasuredAt, measuredAtJson, if_pos htext]
    exact puts_append (by decide)
  · simp only [appendMeasuredAt, measuredAtJson, if_neg htext]
    exact puts_jsonString text

theorem puts_event (event : TelemetryEvent) (celsius : FiniteFloat) :
    Puts capacity (writeEvent event celsius) (encoding event celsius) := by
  have htail : eventTail event celsius ≠ [] := by simp [eventTail, ascii]
  have hsequence : ascii ",\"sequence_number\":" ++ signedDecimal event.sequenceNumber ++
      ascii ",\"measured_at\":" ≠ [] := by simp [ascii]
  exact (puts_append (by decide)).seq ((puts_jsonString _).seq ((puts_append (by decide)).seq
    ((puts_jsonString _).seq ((puts_printFormatted hsequence).seq
      ((puts_measuredAt _).seq (puts_printFormatted htail))))))

end Puts

/-- An event is written exactly if its fields are in order and its text fits with a terminating
zero; then the buffer holds the text. -/
theorem telemetryEncode_eq_ok {event : TelemetryEvent} {capacity : Nat} {w : Writer} :
    telemetryEncode event capacity = .ok w ↔
      ∃ celsius, encodable event = some celsius ∧
        (encoding event celsius).length < capacity ∧ w = holding capacity (encoding event celsius) := by
  unfold telemetryEncode
  cases hevent : encodable event with
  | none => simp
  | some celsius =>
    by_cases hcapacity : capacity = 0
    · simp [hcapacity]
    · -- the whole text is one value written to an empty buffer
      have h := puts_event event celsius [] w (Nat.pos_of_ne_zero hcapacity)
      rw [List.nil_append] at h
      simp only [if_neg hcapacity]
      constructor
      · intro hencode
        exact ⟨celsius, rfl, h.mp hencode⟩
      · rintro ⟨_, ⟨⟩, hencode⟩
        exact h.mpr hencode

end EquipmentMonitoring.Firmware
