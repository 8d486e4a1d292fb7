import EquipmentMonitoring.Backend.Database
import Mathlib.Data.List.Sort

/-!
# Read Models (`list_device_status`, `read_device_history`)

What the dashboard reads: each device with its newest reading, and the readings of one device in a
range of time. Both count a reading for its event time, and let the larger row id win a tie.

## Layers

- `newestFirst`: the order of both queries
- `Db.listStatusRows`, `listDeviceStatus`: the device list
- `Db.readHistoryRows`, `readDeviceHistory`: the history of a device
-/

namespace EquipmentMonitoring.Backend

/-! ## Queries -/

/-- ORDER BY event_time DESC, id DESC. -/
def newestFirst (r r' : Telemetry) : Bool :=
  decide (r'.eventAt < r.eventAt) || (decide (r.eventAt = r'.eventAt) && decide (r'.id ≤ r.id))

/-- The readings of a device that satisfy a condition, newest first. -/
def Db.newestReadings (db : Db) (deviceId : Identifier) (condition : Telemetry → Bool) :
    List Telemetry :=
  (db.telemetry.rows.filter fun row => decide (row.deviceId = deviceId) && condition row).mergeSort
    newestFirst

/-- The names of the devices, and the order in which the database sorts texts. -/
structure Names where
  name : Identifier → Bytes
  collate : Bytes → Bytes → Bool

structure StatusRow where
  deviceId : Identifier
  name : Bytes
  gatewayId : Identifier
  enabled : Bool
  lastSeenAt : Option Time
  gatewayEnabled : Bool
  siteEnabled : Bool
  latest : Option Telemetry

/-- ORDER BY name, device_id. -/
def Names.before (names : Names) (s s' : StatusRow) : Bool :=
  if s.name = s'.name then names.collate s.deviceId.text s'.deviceId.text
  else names.collate s.name s'.name

/-- One row of the join, with the lateral query for the newest reading. -/
def Db.statusRow (db : Db) (names : Names) (d : Device) : Option StatusRow := do
  -- inner joins: a device without its gateway or site has no row
  let gateway ← db.gateways.find? d.gatewayId
  let site ← db.sites.find? gateway.siteId
  return {
    deviceId := d.deviceId
    name := names.name d.deviceId
    gatewayId := d.gatewayId
    enabled := d.enabled
    lastSeenAt := d.lastSeenAt
    gatewayEnabled := gateway.enabled
    siteEnabled := site.enabled
    latest := (db.newestReadings d.deviceId fun _ => true).head? }

/-- `list_status_rows`. -/
def Db.listStatusRows (db : Db) (names : Names) : List StatusRow :=
  (db.devices.rows.filterMap (db.statusRow names)).mergeSort names.before

/-- `read_history_rows`. -/
def Db.readHistoryRows (db : Db) (deviceId : Identifier) (rangeStart rangeEnd : Time)
    (limit : Nat) : List Telemetry :=
  (db.newestReadings deviceId fun row =>
    decide (rangeStart ≤ row.eventAt) && decide (row.eventAt < rangeEnd)).take limit

/-! ## The Device List -/

inductive TimestampSource where
  | measuredAt
  | gatewayReceivedAt
deriving DecidableEq

def Telemetry.timestampSource (row : Telemetry) : TimestampSource :=
  if row.measuredAt.isSome ∧ row.quality.clock = .synchronised then .measuredAt
  else .gatewayReceivedAt

structure LatestReading where
  value : Decimal
  unit : MeasurementUnit
  measuredAt : Option Time
  gatewayReceivedAt : Time
  eventAt : Time
  timestampSource : TimestampSource
  clockQuality : ClockQuality

def LatestReading.ofRow (row : Telemetry) : LatestReading where
  value := row.value
  unit := row.unit
  measuredAt := row.measuredAt
  gatewayReceivedAt := row.gatewayReceivedAt
  eventAt := row.eventAt
  timestampSource := row.timestampSource
  clockQuality := row.quality.clock

structure DeviceStatus where
  deviceId : Identifier
  name : Bytes
  gatewayId : Identifier
  enabled : Bool
  online : Bool
  lastSeenAt : Option Time
  latestReading : Option LatestReading

/-- `ONLINE_WINDOW`. -/
def onlineWindow : Time := microseconds 90

def StatusRow.status (row : StatusRow) (now : Time) : DeviceStatus where
  deviceId := row.deviceId
  name := row.name
  gatewayId := row.gatewayId
  enabled := row.enabled
  -- a last_seen_at in the future does not count either
  online := row.enabled && row.gatewayEnabled && row.siteEnabled &&
    row.lastSeenAt.any fun seen => decide (now - onlineWindow ≤ seen) && decide (seen ≤ now)
  lastSeenAt := row.lastSeenAt
  latestReading := row.latest.map .ofRow

/-- `list_device_status`. -/
def listDeviceStatus (db : Db) (names : Names) (now : Time) : List DeviceStatus :=
  (db.listStatusRows names).map fun row => row.status now

/-! ## The History of a Device -/

def maxPoints : Nat := 2000

/-- Seven days. -/
def maxRange : Time := microseconds (7 * 24 * 60 * 60)

def maxConnectedGap : Time := microseconds 120

structure HistoryPoint where
  eventAt : Time
  timestampSource : TimestampSource
  measuredAt : Option Time
  gatewayReceivedAt : Time
  clockQuality : ClockQuality
  value : Decimal
  unit : MeasurementUnit
  gapBefore : Bool

structure DeviceHistory where
  deviceId : Identifier
  unit : MeasurementUnit
  rangeStart : Time
  rangeEnd : Time
  truncated : Bool
  points : List HistoryPoint

inductive HistoryError where
  | invalidRange
  | deviceNotFound

/-- A reading does not continue the one before it. -/
def hasGapBefore (previous : Option Telemetry) (row : Telemetry) : Bool :=
  match previous with
  | none => true
  | some previous =>
    decide (row.bootId ≠ previous.bootId) ||
      decide (row.sequenceNumber.value ≠ previous.sequenceNumber.value + 1) ||
      decide (row.eventAt - previous.eventAt > maxConnectedGap) ||
      decide (row.timestampSource ≠ previous.timestampSource)

def HistoryPoint.ofRow (previous : Option Telemetry) (row : Telemetry) : HistoryPoint where
  eventAt := row.eventAt
  timestampSource := row.timestampSource
  measuredAt := row.measuredAt
  gatewayReceivedAt := row.gatewayReceivedAt
  clockQuality := row.quality.clock
  value := row.value
  unit := row.unit
  gapBefore := hasGapBefore previous row

/-- The points of readings in ascending order. -/
def historyPoints : Option Telemetry → List Telemetry → List HistoryPoint
  | _, [] => []
  | previous, row :: rest => .ofRow previous row :: historyPoints (some row) rest

/-- `read_device_history`; a bound without a timezone is none. -/
def readDeviceHistory (db : Db) (deviceId : Identifier) (rangeStart rangeEnd : Option Time) :
    Except HistoryError DeviceHistory :=
  match rangeStart, rangeEnd with
  | some rangeStart, some rangeEnd =>
    if rangeStart ≥ rangeEnd ∨ rangeEnd - rangeStart > maxRange then .error .invalidRange
    else if db.hasDevice deviceId = false then .error .deviceNotFound
    else
      -- one row more than is shown, to tell whether there are more
      let rows := db.readHistoryRows deviceId rangeStart rangeEnd (maxPoints + 1)
      .ok {
        deviceId
        unit := .celsius
        rangeStart
        rangeEnd
        truncated := decide (rows.length > maxPoints)
        points := historyPoints none (rows.take maxPoints).reverse }
  | _, _ => .error .invalidRange

end EquipmentMonitoring.Backend
