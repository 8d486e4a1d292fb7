import EquipmentMonitoring.Firmware.Telemetry

/-!
# Encoding at Any Capacity (`telemetry_encoding.c`)

The caller of `telemetry_encode` lends memory and says how much of it may be written. The cursor
and the room behind it always add up to that capacity, so no piece of an event is ever written
beyond it: neither one that fits, nor what `snprintf` cuts off.

## Layers

1. `Writer.over`: the lent memory, in which each piece is a copy to the cursor
2. `Stays`: the steps that keep to the capacity
3. `telemetryEncodeInto`: the call as its caller sees it

## Key Results

- `over_append`, `over_printFormatted`: what one piece does to the memory
- `stays_event`: no piece of an event is written beyond the capacity
- `encode_all_or_nothing`: the call returns true exactly if the whole text fits
-/

namespace EquipmentMonitoring.Firmware

/-! ## Memory -/

/-- `memcpy`. -/
def overwrite (memory : Bytes) (place : Nat) (value : Bytes) : Bytes :=
  memory.take place ++ value ++ memory.drop (place + value.length)

/-- The memory of the caller, with what has been written into it. -/
def Writer.over (w : Writer) (memory : Bytes) : Bytes := w.out ++ memory.drop w.out.length

/-- The writer that a step leaves, whether or not its piece fitted. -/
def left : Except Writer Writer → Writer
  | .ok w => w
  | .error w => w

/-- Behind the cursor there is at most the terminating zero. -/
def Writer.Terminated (w : Writer) : Prop := w.cursor ≤ w.out.length ∧ w.out.length ≤ w.cursor + 1

section Memory

variable {w : Writer} (memory : Bytes)

theorem holding_terminated (capacity : Nat) (text : Bytes) :
    (holding capacity text).Terminated := by
  unfold holding Writer.Terminated
  split
  · next hempty => simp [hempty]
  · simp

/-- A piece behind the cursor takes the place of the terminating zero. -/
theorem over_copied (h : w.Terminated) {piece : Bytes} (hpiece : piece ≠ [])
    (cursor remaining : Nat) :
    (⟨w.out.take w.cursor ++ piece, cursor, remaining⟩ : Writer).over memory =
      overwrite (w.over memory) w.cursor piece := by
  obtain ⟨hstart, hend⟩ := h
  have hlength : 0 < piece.length := List.length_pos_iff.mpr hpiece
  -- The cursor stands inside what was written, so the memory before it is that text.
  have hbefore : (w.over memory).take w.cursor = w.out.take w.cursor :=
    List.take_append_of_le_length hstart
  have hbehind : (w.over memory).drop (w.cursor + piece.length) =
      memory.drop (w.cursor + piece.length) := by
    rw [Writer.over, List.drop_append, List.drop_eq_nil_of_le (by omega), List.nil_append,
      List.drop_drop]
    congr 1
    omega
  rw [overwrite, hbefore, hbehind, Writer.over]
  simp only [List.length_append, List.length_take, Nat.min_eq_left hstart]

variable (capacity : Nat) (text : Bytes)

/-- `append` copies a piece that fits with its terminating zero, and writes nothing otherwise. -/
theorem over_append (value : Bytes) :
    (left (append (holding capacity text) value)).over memory =
      if value.length < capacity - text.length then
        overwrite ((holding capacity text).over memory) text.length (value ++ [0])
      else (holding capacity text).over memory := by
  have hterminated := holding_terminated capacity text
  have hremaining : (holding capacity text).remaining = capacity - text.length := rfl
  have hcursor : (holding capacity text).cursor = text.length := rfl
  rw [append, hremaining]
  by_cases hfits : value.length < capacity - text.length
  · rw [if_pos hfits, if_neg (by omega), ← hcursor, ← over_copied memory hterminated (by simp),
      ← List.append_assoc]
    rfl
  · rw [if_neg hfits, if_pos (by omega)]
    rfl

/-- `snprintf` copies what fits of its text, with a terminating zero. -/
theorem over_printFormatted (hroom : text.length < capacity) (value : Bytes) :
    (left (printFormatted (holding capacity text) value)).over memory =
      overwrite ((holding capacity text).over memory) text.length
        (value.take (capacity - text.length - 1) ++ [0]) := by
  have hterminated := holding_terminated capacity text
  have hremaining : (holding capacity text).remaining = capacity - text.length := rfl
  have hcursor : (holding capacity text).cursor = text.length := rfl
  rw [printFormatted, hremaining]
  by_cases hfull : capacity - text.length ≤ value.length
  · -- what is cut off, and its zero, fill the room
    have hcut : (value.take (capacity - text.length - 1) ++ [0]).take (capacity - text.length) =
        value.take (capacity - text.length - 1) ++ [0] := by
      apply List.take_of_length_le
      rw [List.length_append, List.length_take, List.length_singleton]
      omega
    rw [if_pos hfull, hcut, ← hcursor,
      ← over_copied memory hterminated (by simp) text.length (capacity - text.length)]
    rfl
  · have hwhole : value.take (capacity - text.length - 1) = value :=
      List.take_of_length_le (by omega)
    rw [if_neg hfull, hwhole, ← hcursor, ← over_copied memory hterminated (by simp),
      ← List.append_assoc]
    rfl

end Memory

/-! ## Within the Capacity -/

/-- The cursor and the room behind it make up the capacity, and nothing is written beyond it. -/
def Writer.Within (capacity : Nat) (w : Writer) : Prop :=
  w.cursor + w.remaining = capacity ∧ w.out.length ≤ capacity

/-- The step keeps to the capacity, whether or not its piece fits. -/
def Stays (capacity : Nat) (step : Writer → Except Writer Writer) : Prop :=
  ∀ w : Writer, w.Within capacity → (left (step w)).Within capacity

section Stays

variable {capacity : Nat} {step step' : Writer → Except Writer Writer}

/-- A piece that fits moves the cursor into the room behind it. -/
theorem within_copied {w : Writer} (h : w.Within capacity) {value : Bytes}
    (hfits : value.length < w.remaining) :
    (⟨w.out.take w.cursor ++ value ++ [0], w.cursor + value.length,
      w.remaining - value.length⟩ : Writer).Within capacity := by
  obtain ⟨hsum, -⟩ := h
  constructor
  · simp only
    omega
  · simp only [List.length_append, List.length_take, List.length_singleton]
    omega

theorem stays_append (value : Bytes) : Stays capacity (append · value) := by
  intro w hw
  simp only [append]
  by_cases hfull : w.remaining ≤ value.length
  · rw [if_pos hfull]
    exact hw
  · rw [if_neg hfull]
    exact within_copied hw (by omega)

theorem stays_printFormatted (value : Bytes) : Stays capacity (printFormatted · value) := by
  intro w hw
  simp only [printFormatted]
  by_cases hfull : w.remaining ≤ value.length
  · rw [if_pos hfull]
    obtain ⟨hsum, -⟩ := hw
    -- what is cut off is no longer than the room
    have hcut := List.length_take_le w.remaining (value.take (w.remaining - 1) ++ [0])
    refine ⟨hsum, ?_⟩
    simp only [left, List.length_append, List.length_take] at hcut ⊢
    omega
  · rw [if_neg hfull]
    exact within_copied hw (by omega)

theorem stays_done : Stays capacity pure := fun _ hw => hw

theorem Stays.seq (h : Stays capacity step) (h' : Stays capacity step') :
    Stays capacity fun w => step w >>= step' := by
  intro w hw
  have hfirst := h w hw
  show (left (step w >>= step')).Within capacity
  cases hstep : step w with
  | error w' =>
    rw [hstep] at hfirst
    exact hfirst
  | ok w' =>
    rw [hstep] at hfirst
    exact h' w' hfirst

theorem stays_foldlM (f : UInt8 → Bytes) (text : Bytes) :
    Stays capacity fun w => text.foldlM (fun w b => append w (f b)) w := by
  induction text with
  | nil => exact stays_done
  | cons b rest ih =>
    simp only [List.foldlM_cons]
    exact (stays_append (f b)).seq ih

theorem stays_jsonString (text : Bytes) : Stays capacity (appendJsonString · text) :=
  (stays_append [0x22]).seq ((stays_foldlM escapedByte text).seq (stays_append [0x22]))

theorem stays_measuredAt (text : Bytes) : Stays capacity (appendMeasuredAt · text) := by
  by_cases htext : text = []
  · simp only [appendMeasuredAt, if_pos htext]
    exact stays_append _
  · simp only [appendMeasuredAt, if_neg htext]
    exact stays_jsonString text

/-- No piece of an event is written beyond the capacity. -/
theorem stays_event (event : TelemetryEvent) (celsius : FiniteFloat) :
    Stays capacity (writeEvent event celsius) :=
  (stays_append _).seq ((stays_jsonString _).seq ((stays_append _).seq ((stays_jsonString _).seq
    ((stays_printFormatted _).seq ((stays_measuredAt _).seq (stays_printFormatted _))))))

theorem telemetryEncode_within (event : TelemetryEvent) (capacity : Nat) :
    (left (telemetryEncode event capacity)).Within capacity := by
  have hstart : (⟨[], 0, capacity⟩ : Writer).Within capacity := ⟨Nat.zero_add _, Nat.zero_le _⟩
  rw [telemetryEncode]
  cases encodable event with
  | none => exact hstart
  | some celsius =>
    simp only
    split
    · exact hstart
    · exact stays_event event celsius _ hstart

end Stays

/-! ## The Call -/

/-- `telemetry_encode` as its caller sees it: what it returns, and the memory afterwards. -/
def telemetryEncodeInto (event : TelemetryEvent) (memory : Bytes) (capacity : Nat) : Bool × Bytes :=
  match telemetryEncode event capacity with
  | .ok w => (true, w.over memory)
  | .error w => (false, w.over memory)

/-- The text at the beginning of the memory, up to its terminating zero. -/
def cString (memory : Bytes) : Bytes := memory.takeWhile (· ≠ 0)

/-- The fields of an event are in order. -/
structure ValidFields (event : TelemetryEvent) (celsius : FiniteFloat) : Prop where
  deviceId : event.deviceId.text ≠ [] ∧ event.deviceId.text.length ≤ 128
  bootId : event.bootId.text ≠ [] ∧ event.bootId.text.length ≤ 128
  sequenceNumber : 0 ≤ event.sequenceNumber.toInt
  deviceUptimeMs : 0 ≤ event.deviceUptimeMs.toInt
  finite : event.celsius = .finite celsius
  range : -55 ≤ celsius.toRat ∧ celsius.toRat ≤ 125

theorem encodable_iff_validFields {event : TelemetryEvent} {celsius : FiniteFloat} :
    encodable event = some celsius ↔ ValidFields event celsius := by
  rw [encodable_eq_some]
  constructor
  · rintro ⟨hdevice, hboot, hsequence, huptime, hcelsius, hrange⟩
    exact ⟨hdevice, hboot, hsequence, huptime, hcelsius, hrange⟩
  · rintro ⟨hdevice, hboot, hsequence, huptime, hcelsius, hrange⟩
    exact ⟨hdevice, hboot, hsequence, huptime, hcelsius, hrange⟩

section Call

variable (event : TelemetryEvent) (memory : Bytes) (capacity : Nat)

theorem telemetryEncodeInto_snd :
    (telemetryEncodeInto event memory capacity).2 =
      (left (telemetryEncode event capacity)).over memory := by
  rw [telemetryEncodeInto]
  cases telemetryEncode event capacity with
  | ok w => rfl
  | error w => rfl

theorem telemetryEncodeInto_fst :
    (telemetryEncodeInto event memory capacity).1 = true ↔
      ∃ w, telemetryEncode event capacity = .ok w := by
  rw [telemetryEncodeInto]
  cases telemetryEncode event capacity with
  | ok w => simp
  | error w => simp

/-- Beyond the capacity, the memory is as it was. -/
theorem drop_telemetryEncodeInto :
    (telemetryEncodeInto event memory capacity).2.drop capacity = memory.drop capacity := by
  obtain ⟨-, hlength⟩ := telemetryEncode_within event capacity
  rw [telemetryEncodeInto_snd, Writer.over, List.drop_append, List.drop_eq_nil_of_le hlength,
    List.nil_append, List.drop_drop]
  congr 1
  omega

variable {event memory capacity}

/-- What is left by a call that returned true begins with the whole text and its zero. -/
theorem prefix_telemetryEncodeInto {celsius : FiniteFloat} (hcelsius : event.celsius = .finite celsius)
    (h : (telemetryEncodeInto event memory capacity).1 = true) :
    encoding event celsius ++ [0] <+: (telemetryEncodeInto event memory capacity).2 := by
  obtain ⟨w, hencode⟩ := (telemetryEncodeInto_fst ..).mp h
  obtain ⟨celsius', hfields, -, hw⟩ := telemetryEncode_eq_ok.mp hencode
  have hsame : celsius' = celsius := by
    have hfinite := (encodable_iff_validFields.mp hfields).finite
    rw [hcelsius] at hfinite
    exact (Binary32.finite.inj hfinite).symm
  have hne : encoding event celsius ≠ [] := by
    intro hempty
    have hlength := length_encoding event celsius
    rw [hempty, List.length_nil] at hlength
    omega
  rw [telemetryEncodeInto_snd, hencode, hw, hsame, left, Writer.over, holding, if_neg hne]
  exact List.prefix_append _ _

theorem cString_of_prefix {text : Bytes} (hstart : text ++ [0] <+: memory) (hnul : 0 ∉ text) :
    cString memory = text := by
  obtain ⟨rest, rfl⟩ := hstart
  have hall : ∀ b ∈ text, decide (b ≠ 0) = true :=
    fun b hb => decide_eq_true fun hzero => hnul (hzero ▸ hb)
  rw [cString, List.append_assoc, List.takeWhile_append_of_pos hall]
  simp

end Call

/-- The call returns true exactly if the fields are in order and the whole text fits with its
terminating zero. Then the memory holds that text, whichever call it is; and beyond the capacity
nothing is ever written. -/
theorem encode_all_or_nothing (event : TelemetryEvent) (memory : Bytes) (capacity : Nat) :
    let call := telemetryEncodeInto event memory capacity
    (call.1 = true ↔
      ∃ celsius, ValidFields event celsius ∧ (encoding event celsius).length + 1 ≤ capacity) ∧
    (call.1 = true → ∃ celsius, ValidFields event celsius ∧
      encoding event celsius ++ [0] <+: call.2 ∧ cString call.2 = encoding event celsius ∧
      ∀ memory' capacity', (telemetryEncodeInto event memory' capacity').1 = true →
        cString (telemetryEncodeInto event memory' capacity').2 = cString call.2) ∧
    call.2.drop capacity = memory.drop capacity := by
  -- Success depends on the fields and the room, never on what the memory held.
  have hreturns (memory : Bytes) (capacity : Nat) :
      (telemetryEncodeInto event memory capacity).1 = true ↔
        ∃ celsius, ValidFields event celsius ∧ (encoding event celsius).length + 1 ≤ capacity := by
    rw [telemetryEncodeInto_fst]
    constructor
    · rintro ⟨w, hencode⟩
      obtain ⟨celsius, hfields, hfits, -⟩ := telemetryEncode_eq_ok.mp hencode
      exact ⟨celsius, encodable_iff_validFields.mp hfields, hfits⟩
    · rintro ⟨celsius, hfields, hfits⟩
      exact ⟨_, telemetryEncode_eq_ok.mpr ⟨celsius, encodable_iff_validFields.mpr hfields, hfits, rfl⟩⟩
  refine ⟨hreturns memory capacity, fun h => ?_, drop_telemetryEncodeInto event memory capacity⟩
  obtain ⟨celsius, hfields, -⟩ := (hreturns memory capacity).mp h
  -- The text has no NUL of its own, so the string read back ends where it does.
  have hholds {memory : Bytes} {capacity : Nat}
      (h : (telemetryEncodeInto event memory capacity).1 = true) :
      cString (telemetryEncodeInto event memory capacity).2 = encoding event celsius :=
    cString_of_prefix (prefix_telemetryEncodeInto hfields.finite h) (encoding_noNul event celsius)
  refine ⟨celsius, hfields, prefix_telemetryEncodeInto hfields.finite h, hholds h, ?_⟩
  intro memory' capacity' h'
  rw [hholds h', hholds h]

end EquipmentMonitoring.Firmware
