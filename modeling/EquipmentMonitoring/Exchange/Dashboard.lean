import EquipmentMonitoring.Backend.ArrivalOrder
import EquipmentMonitoring.Backend.Validation
import EquipmentMonitoring.Exchange.Contract
import EquipmentMonitoring.Exchange.Responses
import EquipmentMonitoring.Frontend.Validation

/-!
# From the Read Models to the Dashboard

The backend writes a stored number as the text of the decimal number; the dashboard takes a text
only if it rounds to a finite double, and rejects a body of which it rejects a part.

## Key Results

- `isLatestReading_body`, `isHistoryPoint_body`: a reading passes when its value does
- `getDevices_isSome`, `getDeviceHistory_isSome`: a body passes when all its readings do
- `accepted_shown_iff`: which accepted events can be shown
-/

namespace EquipmentMonitoring.Exchange

open EquipmentMonitoring.Json EquipmentMonitoring.Backend EquipmentMonitoring.Frontend

/-! ## Bodies -/

/-- The texts of timestamps, which the engine reads. -/
structure Dates where
  js : Engine
  isoformat : Time → Bytes
  parses : ∀ t, js.parsesDate (isoformat t) = true

def unitText : MeasurementUnit → String
  | .celsius => "celsius"

def clockText : ClockQuality → String
  | .synchronised => "synchronised"
  | .unsynchronised => "unsynchronised"
  | .estimated => "estimated"
  | .unknown => "unknown"

def sourceText : TimestampSource → String
  | .measuredAt => "measured_at"
  | .gatewayReceivedAt => "gateway_received_at"

def text (s : String) : Value := .string (ascii s)

def nullable {α : Type} (write : α → Value) : Option α → Value
  | none => .null
  | some a => write a

namespace Dates

variable (dates : Dates)

def time (t : Time) : Value := .string (dates.isoformat t)

/-- `LatestReading`. -/
def readingBody (r : LatestReading) : Value :=
  .object [(ascii "value", .string r.value.str), (ascii "unit", text (unitText r.unit)),
    (ascii "measured_at", nullable dates.time r.measuredAt),
    (ascii "gateway_received_at", dates.time r.gatewayReceivedAt),
    (ascii "event_at", dates.time r.eventAt),
    (ascii "timestamp_source", text (sourceText r.timestampSource)),
    (ascii "clock_quality", text (clockText r.clockQuality))]

/-- `DeviceStatus`. -/
def deviceBody (s : DeviceStatus) : Value :=
  .object [(ascii "device_id", .string s.deviceId.text), (ascii "name", .string s.name),
    (ascii "gateway_id", .string s.gatewayId.text), (ascii "enabled", .bool s.enabled),
    (ascii "online", .bool s.online), (ascii "last_seen_at", nullable dates.time s.lastSeenAt),
    (ascii "latest_reading", nullable dates.readingBody s.latestReading)]

/-- `DeviceStatusList`. -/
def statusBody (devices : List DeviceStatus) : Value :=
  .object [(ascii "devices", .array (devices.map dates.deviceBody))]

/-- `HistoryPoint`. -/
def pointBody (p : HistoryPoint) : Value :=
  .object [(ascii "event_at", dates.time p.eventAt),
    (ascii "timestamp_source", text (sourceText p.timestampSource)),
    (ascii "measured_at", nullable dates.time p.measuredAt),
    (ascii "gateway_received_at", dates.time p.gatewayReceivedAt),
    (ascii "clock_quality", text (clockText p.clockQuality)),
    (ascii "value", .string p.value.str), (ascii "unit", text (unitText p.unit)),
    (ascii "gap_before", .bool p.gapBefore)]

/-- `DeviceHistory`. -/
def historyBody (history : DeviceHistory) : Value :=
  .object [(ascii "device_id", .string history.deviceId.text),
    (ascii "unit", text (unitText history.unit)),
    (ascii "range_start", dates.time history.rangeStart),
    (ascii "range_end", dates.time history.rangeEnd),
    (ascii "truncated", .bool history.truncated),
    (ascii "points", .array (history.points.map dates.pointBody))]

end Dates

/-! ## Shapes -/

section Bodies

variable (dates : Dates)

theorem includes_sourceText (source : TimestampSource) :
    includes Engine.timestampSources (text (sourceText source)) = true := by
  cases source <;> simp [includes, text, stringOf, sourceText, Engine.timestampSources]

theorem includes_clockText (clock : ClockQuality) :
    includes Engine.clockWords (text (clockText clock)) = true := by
  cases clock <;> simp [includes, text, stringOf, clockText, Engine.clockWords]

theorem isTimestamp_time (t : Time) : dates.js.isTimestamp (dates.time t) = true := dates.parses t

theorem nullOr_time {check : Value → Bool} (h : ∀ t, check (dates.time t) = true)
    (o : Option Time) : nullOr check (nullable dates.time o) = true := by
  cases o with
  | none => rfl
  | some t => exact h t

/-- A reading passes exactly when its value does. -/
theorem isLatestReading_body (r : LatestReading) :
    dates.js.isLatestReading (dates.readingBody r) = true ↔ RoundsFinite r.value := by
  have hbody : dates.js.isLatestReading (dates.readingBody r) =
      (isTemperatureValue (.string r.value.str) && isString (text (unitText r.unit)) &&
        nullOr isString (nullable dates.time r.measuredAt) &&
        dates.js.isTimestamp (dates.time r.gatewayReceivedAt) &&
        dates.js.isTimestamp (dates.time r.eventAt) &&
        includes Engine.timestampSources (text (sourceText r.timestampSource)) &&
        includes Engine.clockWords (text (clockText r.clockQuality))) := rfl
  have hunit : isString (text (unitText r.unit)) = true := rfl
  have hmeasured : nullOr isString (nullable dates.time r.measuredAt) = true :=
    nullOr_time dates (fun _ => rfl) r.measuredAt
  rw [hbody, hunit, hmeasured, isTimestamp_time, isTimestamp_time, includes_sourceText,
    includes_clockText]
  simp only [Bool.and_true]
  exact isTemperatureValue_str r.value

/-- A point passes exactly when its value does. -/
theorem isHistoryPoint_body (p : HistoryPoint) :
    dates.js.isHistoryPoint (dates.pointBody p) = true ↔ RoundsFinite p.value := by
  have hbody : dates.js.isHistoryPoint (dates.pointBody p) =
      (dates.js.isTimestamp (dates.time p.eventAt) &&
        includes Engine.timestampSources (text (sourceText p.timestampSource)) &&
        nullOr dates.js.isTimestamp (nullable dates.time p.measuredAt) &&
        dates.js.isTimestamp (dates.time p.gatewayReceivedAt) &&
        includes Engine.clockWords (text (clockText p.clockQuality)) &&
        isTemperatureValue (.string p.value.str) && isString (text (unitText p.unit)) &&
        isBoolean (.bool p.gapBefore)) := rfl
  have hunit : isString (text (unitText p.unit)) = true := rfl
  have hgap : isBoolean (.bool p.gapBefore) = true := rfl
  rw [hbody, hunit, hgap, nullOr_time dates (isTimestamp_time dates), isTimestamp_time,
    isTimestamp_time, includes_sourceText, includes_clockText]
  simp only [Bool.and_true, Bool.true_and]
  exact isTemperatureValue_str p.value

theorem isDeviceStatus_body (s : DeviceStatus) :
    dates.js.isDeviceStatus (dates.deviceBody s) = true ↔
      ∀ r, s.latestReading = some r → RoundsFinite r.value := by
  have hbody : dates.js.isDeviceStatus (dates.deviceBody s) =
      (nullOr dates.js.isTimestamp (nullable dates.time s.lastSeenAt) &&
        nullOr dates.js.isLatestReading (nullable dates.readingBody s.latestReading)) := rfl
  rw [hbody, nullOr_time dates (isTimestamp_time dates), Bool.true_and]
  cases s.latestReading with
  | none => simp [nullable, nullOr]
  | some r =>
    simp only [Option.some.injEq, forall_eq']
    exact isLatestReading_body dates r

/-- The device list passes exactly when every newest reading does. -/
theorem getDevices_isSome (devices : List DeviceStatus) :
    (dates.js.getDevices (dates.statusBody devices)).isSome = true ↔
      ∀ s ∈ devices, ∀ r, s.latestReading = some r → RoundsFinite r.value := by
  have hbody : dates.js.getDevices (dates.statusBody devices) =
      if (devices.map dates.deviceBody).all dates.js.isDeviceStatus = true then
        some (.array (devices.map dates.deviceBody)) else none := rfl
  have hall : (devices.map dates.deviceBody).all dates.js.isDeviceStatus = true ↔
      ∀ s ∈ devices, ∀ r, s.latestReading = some r → RoundsFinite r.value := by
    rw [List.all_map, List.all_eq_true]
    simp only [Function.comp_apply, isDeviceStatus_body]
  rw [hbody, ← hall]
  split <;> simp_all

/-- The history passes exactly when every point does. -/
theorem getDeviceHistory_isSome (history : DeviceHistory) :
    (dates.js.getDeviceHistory history.deviceId.text (dates.historyBody history)).isSome = true ↔
      ∀ p ∈ history.points, RoundsFinite p.value := by
  have hbody : dates.js.isDeviceHistory (dates.historyBody history) =
      (dates.js.isTimestamp (dates.time history.rangeStart) &&
        dates.js.isTimestamp (dates.time history.rangeEnd) && isBoolean (.bool history.truncated) &&
        (history.points.map dates.pointBody).all dates.js.isHistoryPoint) := rfl
  have htruncated : isBoolean (.bool history.truncated) = true := rfl
  -- The device of the answer is the device that was asked for.
  have hdevice : hasProperty (dates.historyBody history) "device_id"
      (Engine.isText history.deviceId.text) = true := by
    have hproperty : hasProperty (dates.historyBody history) "device_id"
        (Engine.isText history.deviceId.text) =
          (history.deviceId.text == history.deviceId.text) := rfl
    rw [hproperty, beq_self_eq_true]
  have hall : (history.points.map dates.pointBody).all dates.js.isHistoryPoint = true ↔
      ∀ p ∈ history.points, RoundsFinite p.value := by
    rw [List.all_map, List.all_eq_true]
    simp only [Function.comp_apply, isHistoryPoint_body]
  rw [Engine.getDeviceHistory, hbody, hdevice, htruncated, isTimestamp_time, isTimestamp_time,
    ← hall]
  split <;> simp_all

end Bodies

/-! ## Accepted Events -/

section Accepted

variable {pg : NumericColumn} {clock : Clock} {db db' : Db} {gatewayId batchId : Identifier}
  {batch : ValidatedTelemetryBatch} {response : TelemetryBatchResponse}

/-- An accepted event has a row that keeps its value. -/
theorem accepted_row (hok : ingestBatch pg clock db gatewayId batch batchId = .ok (response, db'))
    {item : TelemetryEvent} (hitem : item ∈ acceptedEvents batch.items response.results) :
    ∃ row ∈ db'.telemetry, row.identity = item.identity ∧ row.eventAt = item.eventAt ∧
      row.value.toRat = item.value.toRat := by
  have hrun : Accepts pg db (acceptedEvents batch.items response.results) db' := by
    simpa using (Accepts.refl db).step hok
  obtain ⟨new, hrows, hcontents⟩ := hrun.leaves.exists_new hrun.prefix
  have hcontent : item.content pg ∈ new.map Telemetry.content := by
    rw [hcontents]
    exact List.mem_map_of_mem hitem
  obtain ⟨row, hrow, heq⟩ := List.mem_map.mp hcontent
  -- The column keeps the value as a number, so only its digits may differ.
  have hvalue : row.value = (pg.store item.value).getD item.value :=
    congrArg Telemetry.value heq
  refine ⟨row, ?_, congrArg Telemetry.identity heq, congrArg Telemetry.eventAt heq, ?_⟩
  · rw [Table.mem_def, hrows]
    exact List.mem_append_right _ hrow
  · rw [hvalue]
    cases hstore : pg.store item.value with
    | none => rfl
    | some value => exact pg.store_eq _ _ hstore

/-- The row of an accepted event can be shown exactly when the event's value rounds to a finite
double, and a body passes exactly when that is so of every reading in it. -/
theorem accepted_shown_iff (pg : NumericColumn) (clock : Clock) (db db' : Db)
    (gatewayId batchId : Identifier) (batch : ValidatedTelemetryBatch)
    (response : TelemetryBatchResponse)
    (hok : ingestBatch pg clock db gatewayId batch batchId = .ok (response, db'))
    (item : TelemetryEvent) (hitem : item ∈ acceptedEvents batch.items response.results)
    (dates : Dates) :
    (∃ row ∈ db'.telemetry, row.identity = item.identity ∧
      (dates.js.isLatestReading (dates.readingBody (.ofRow row)) = true ↔
        RoundsFinite item.value) ∧
      ∀ previous, dates.js.isHistoryPoint (dates.pointBody (.ofRow previous row)) = true ↔
        RoundsFinite item.value) ∧
    (∀ state : Db, ∀ names now,
      (dates.js.getDevices (dates.statusBody (listDeviceStatus state names now))).isSome = true ↔
        ∀ s ∈ listDeviceStatus state names now, ∀ r, s.latestReading = some r →
          RoundsFinite r.value) ∧
    ∀ state : Db, ∀ deviceId rangeStart rangeEnd history,
      readDeviceHistory state deviceId rangeStart rangeEnd = .ok history →
      ((dates.js.getDeviceHistory history.deviceId.text (dates.historyBody history)).isSome = true ↔
        ∀ p ∈ history.points, RoundsFinite p.value) := by
  obtain ⟨row, hrow, hidentity, -, hvalue⟩ := accepted_row hok hitem
  -- The column stores the sender's value, so both round to a finite double or neither does.
  have hsame : RoundsFinite row.value ↔ RoundsFinite item.value := by
    rw [RoundsFinite, RoundsFinite, hvalue]
  refine ⟨⟨row, hrow, hidentity, ?_, fun previous => ?_⟩, fun state names now => ?_,
    fun state deviceId rangeStart rangeEnd history _ => ?_⟩
  · exact (isLatestReading_body dates (.ofRow row)).trans hsame
  · exact (isHistoryPoint_body dates (.ofRow previous row)).trans hsame
  · exact getDevices_isSome dates _
  · exact getDeviceHistory_isSome dates history

end Accepted

/-! ## Two Readings -/

/-- A registered device is listed. -/
theorem exists_listed {db : Db} {d : Device} {gateway : Backend.Gateway} {site : Site}
    (hd : d ∈ db.devices) (hgateway : db.gateways.find? d.gatewayId = some gateway)
    (hsite : db.sites.find? gateway.siteId = some site) (names : Names) (now : Time) :
    ∃ s ∈ listDeviceStatus db names now, s.deviceId = d.deviceId := by
  have hrow : db.statusRow names d = some {
      deviceId := d.deviceId
      name := names.name d.deviceId
      gatewayId := d.gatewayId
      enabled := d.enabled
      lastSeenAt := d.lastSeenAt
      gatewayEnabled := gateway.enabled
      siteEnabled := site.enabled
      latest := (db.newestReadings d.deviceId fun _ => true).head? } := by
    simp [Db.statusRow, hgateway, hsite]
  have hmem : _ ∈ db.listStatusRows names :=
    List.mem_mergeSort.mpr (List.mem_filterMap.mpr ⟨d, hd, hrow⟩)
  exact ⟨_, List.mem_map_of_mem hmem, rfl⟩

/-- A batch of one event with this number. -/
def sampleBatchBody (value : String) : Bytes :=
  ascii "\x7b\"schema_version\":1,\"events\":[\x7b\"device_id\":\"d-1\",\"boot_id\":\"b-1\"," ++
    ascii "\"sequence_number\":7,\"measured_at\":null,\"device_uptime_ms\":1," ++
    ascii "\"gateway_received_at\":\"2026-09-29T00:00:00Z\",\"metric\":\"temperature\",\"value\":" ++
    ascii value ++ ascii ",\"unit\":\"celsius\"," ++
    ascii "\"quality\":\x7b\"reading\":\"valid\",\"clock\":\"unknown\"\x7d\x7d]\x7d"

/-- What is stored of such a batch. -/
def storedSample (value : String) : Option (ValidatedTelemetryBatch × TelemetryBatchResponse × Db) :=
  match parseTelemetryBatch samplePython (sampleBatchBody value) with
  | .ok batch =>
    match ingestBatch numeric sampleClock sampleDb sampleGateway batch sampleBoot with
    | .ok (response, db) => some (batch, response, db)
    | .error _ => none
  | .error _ => none

theorem storedSample_eq_some {value : String} {batch : ValidatedTelemetryBatch}
    {response : TelemetryBatchResponse} {db : Db}
    (h : storedSample value = some (batch, response, db)) :
    parseTelemetryBatch samplePython (sampleBatchBody value) = .ok batch ∧
      ingestBatch numeric sampleClock sampleDb sampleGateway batch sampleBoot =
        .ok (response, db) := by
  unfold storedSample at h
  split at h
  · next batch' hbatch =>
    split at h
    · next response' db' hok =>
      simp only [Option.some.injEq, Prod.mk.injEq] at h
      obtain ⟨rfl, rfl, rfl⟩ := h
      exact ⟨hbatch, hok⟩
    · simp at h
  · simp at h

/-- The only time in these batches, as it is written. -/
def sampleDates : Dates where
  js := ⟨fun text => text == ascii "2026-09-29T00:00:00Z"⟩
  isoformat _ := ascii "2026-09-29T00:00:00Z"
  parses _ := by decide

theorem accepted_shown_sample : ∃ batch response db, storedSample "-12.5e-9" = some (batch, response, db) ∧
    ∃ row ∈ db.telemetry, sampleDates.js.isLatestReading
      (sampleDates.readingBody (.ofRow row)) = true := by
  have haccepted : (storedSample "-12.5e-9").any (fun stored =>
      (acceptedEvents stored.1.items stored.2.1.results).map TelemetryEvent.value ==
        [⟨true, 125, -10⟩]) = true := by
    decide +kernel
  obtain ⟨⟨batch, response, db⟩, hstored, hvalues⟩ := exists_of_any haccepted
  obtain ⟨-, hok⟩ := storedSample_eq_some hstored
  obtain ⟨item, hitem, hvalue⟩ := List.mem_map.mp
    (show (⟨true, 125, -10⟩ : Decimal) ∈ _ from eq_of_beq hvalues ▸ List.mem_singleton_self _)
  have hfinite : RoundsFinite item.value := by
    have hbound : 1 ≤ doubleBound := by decide +kernel
    rw [hvalue, RoundsFinite, Decimal.abs_toRat]
    calc ((125 : ℕ) : ℚ) * 10 ^ (-10 : ℤ) < 1 := by norm_num
      _ ≤ doubleBound := by exact_mod_cast hbound
  obtain ⟨⟨row, hrow, -, hshown, -⟩, -⟩ := accepted_shown_iff numeric sampleClock sampleDb db
    sampleGateway sampleBoot batch response hok item hitem sampleDates
  exact ⟨batch, response, db, hstored, row, hrow, hshown.mpr hfinite⟩

/-- A device with one reading is listed with it. -/
theorem newestReadings_singleton {db : Db} {row : Telemetry} (h : db.telemetry.rows = [row]) :
    db.newestReadings row.deviceId (fun _ => true) = [row] := by
  simp [Db.newestReadings, h]

/-- Whatever is committed for the sample, its device stays listed. -/
theorem sampleDevice_listed {pg : NumericColumn} {events : List TelemetryEvent} {db : Db}
    (h : Accepts pg sampleDb events db) (names : Names) (now : Time) :
    ∃ s ∈ listDeviceStatus db names now, s.deviceId = sampleDevice := by
  have hleaves := h.leaves
  -- Storing telemetry leaves the registry alone, up to last_seen_at.
  have hregistered : (⟨sampleDevice, sampleGateway, true, none⟩ : Device) ∈
      db.devices.rows.map Device.registration := by
    rw [hleaves.devices]
    exact List.mem_singleton_self _
  obtain ⟨d, hd, hregistration⟩ := List.mem_map.mp hregistered
  have hid : d.deviceId = sampleDevice := congrArg Device.deviceId hregistration
  have hgatewayId : d.gatewayId = sampleGateway := congrArg Device.gatewayId hregistration
  have hgateway : db.gateways.find? d.gatewayId =
      some ⟨sampleGateway, ⟨ascii "s-1", by decide⟩, true⟩ := by
    rw [hleaves.gateways, hgatewayId]
    rfl
  have hsite : db.sites.find? ⟨ascii "s-1", by decide⟩ =
      some ⟨⟨ascii "s-1", by decide⟩, true⟩ := by
    rw [hleaves.sites]
    rfl
  obtain ⟨s, hs, hsid⟩ := exists_listed hd hgateway hsite names now
  exact ⟨s, hs, hsid.trans hid⟩

/-- `1e400`, as stored. -/
def hugeValue : Decimal := ⟨false, 10 ^ 400, 0⟩

theorem hugeValue_infinite : ¬ RoundsFinite hugeValue := by
  have hbound : doubleBound ≤ hugeValue.coefficient := by decide +kernel
  have hexponent : hugeValue.exponent = 0 := rfl
  rw [RoundsFinite, Decimal.abs_toRat, hexponent, zpow_zero, mul_one, not_lt]
  exact_mod_cast hbound

theorem storedSample_huge : (storedSample "1e400").any (fun stored =>
    stored.2.2.telemetry.rows.map (fun row => (row.deviceId, row.value)) ==
      [(sampleDevice, hugeValue)]) = true := by
  decide +kernel

/-- One reading that is stored makes the whole device list fail. -/
theorem accepted_not_shown : ¬ ∀ (python : Interpreter) (body : Bytes)
    (batch : ValidatedTelemetryBatch) (clock : Clock) (db db' : Db) (gatewayId batchId : Identifier)
    (response : TelemetryBatchResponse), db.telemetry.rows = [] →
      parseTelemetryBatch python body = .ok batch →
      ingestBatch numeric clock db gatewayId batch batchId = .ok (response, db') →
      ∀ dates : Dates, ∀ names now,
        (dates.js.getDevices (dates.statusBody (listDeviceStatus db' names now))).isSome = true := by
  intro hall
  obtain ⟨⟨batch, response, db⟩, hstored, hvalues⟩ := exists_of_any storedSample_huge
  obtain ⟨hbatch, hok⟩ := storedSample_eq_some hstored
  obtain ⟨row, hrow, hrowEq⟩ := List.map_eq_singleton_iff.mp (eq_of_beq hvalues)
  obtain ⟨hdevice, hvalue⟩ := Prod.mk.inj hrowEq
  have hpass := hall samplePython _ batch sampleClock sampleDb db sampleGateway sampleBoot response
    rfl hbatch hok sampleDates ⟨fun _ => [], fun _ _ => true⟩ 0
  -- one device is listed, and its latest reading is the huge one
  obtain ⟨s, hs, hsid⟩ := sampleDevice_listed ((Accepts.refl sampleDb).step hok)
    ⟨fun _ => [], fun _ _ => true⟩ 0
  have hlatest := latestReading_of_mem hs
  rw [hsid, ← hdevice, newestReadings_singleton hrow] at hlatest
  have hfinite := (getDevices_isSome sampleDates _).mp hpass s hs _ hlatest
  rw [show (LatestReading.ofRow row).value = hugeValue from hvalue] at hfinite
  exact hugeValue_infinite hfinite

end EquipmentMonitoring.Exchange
