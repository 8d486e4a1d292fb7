import EquipmentMonitoring.Backend.Schemas
import EquipmentMonitoring.Foundations.UnitOfWork

/-!
# The Backend's Tables (`db/models.py`)

Rows, constraints and the statements that ingestion issues. Primary keys and the unique telemetry
identity are part of the table types; every other constraint of the two alert tables is checked
by the write that could violate it.
-/

namespace EquipmentMonitoring.Backend

/-! ## Rows -/

structure Site where
  siteId : Identifier
  enabled : Bool

structure Gateway where
  gatewayId : Identifier
  siteId : Identifier
  enabled : Bool

structure Device where
  deviceId : Identifier
  gatewayId : Identifier
  enabled : Bool
  lastSeenAt : Option Time
deriving DecidableEq

structure Telemetry where
  id : Nat
  schemaVersion : SchemaVersion
  deviceId : Identifier
  bootId : Identifier
  sequenceNumber : Counter
  measuredAt : Option Time
  deviceUptimeMs : Counter
  gatewayReceivedAt : Time
  backendReceivedAt : Time
  metric : Metric
  value : Decimal
  unit : MeasurementUnit
  quality : TelemetryQuality
deriving DecidableEq

def Telemetry.identity (row : Telemetry) : Identity :=
  ⟨row.deviceId, row.bootId, row.sequenceNumber⟩

structure AlertEpisode where
  id : Nat
  deviceId : Identifier
  openedAt : Time
  resolvedAt : Option Time
  openingTelemetryId : Nat
  resolvingTelemetryId : Option Nat
deriving DecidableEq

structure AlertState where
  deviceId : Identifier
  lastEventAt : Time
  highStreak : Nat
  recoveryStreak : Nat
  activeEpisodeId : Option Nat
deriving DecidableEq

/-- The two alert tables, with the identity column of the episodes. -/
structure AlertTables where
  alertStates : Table AlertState.deviceId
  alertEpisodes : Table AlertEpisode.id
  nextEpisodeId : Nat

/-- All tables; the identity columns count upwards, and skip what a rollback has used. -/
structure Db where
  sites : Table Site.siteId
  gateways : Table Gateway.gatewayId
  devices : Table Device.deviceId
  telemetry : Table Telemetry.identity
  nextTelemetryId : Nat
  alerts : AlertTables
  telemetry_ids : (telemetry.rows.map Telemetry.id).Nodup
  telemetry_lt : ∀ row ∈ telemetry, row.id < nextTelemetryId

/-! ## Numbers -/

/-- The NUMERIC column: it keeps a value, at whatever scale, or raises `DataError`. -/
structure NumericColumn where
  store : Decimal → Option Decimal
  store_eq : ∀ d d', store d = some d' → d'.toRat = d.toRat

/-- PostgreSQL's NUMERIC: at most 131072 digits before the point and 16383 after it. An exponent is
written out, and zero has no sign. -/
def numericStore (d : Decimal) : Option Decimal :=
  if d.exponent < -16383 then none
  else if d.coefficient = 0 then some ⟨false, 0, min d.exponent 0⟩
  else if 131072 < d.exponent + (Nat.log 10 d.coefficient + 1 : Nat) then none
  else some ⟨d.negative, d.coefficient * 10 ^ d.exponent.toNat, min d.exponent 0⟩

theorem numericStore_toRat {d d' : Decimal} (h : numericStore d = some d') : d'.toRat = d.toRat := by
  unfold numericStore at h
  split at h
  · simp at h
  · split at h
    · next hzero =>
      obtain rfl := Option.some.inj h
      simp [Decimal.toRat, hzero]
    · split at h
      · simp at h
      · obtain rfl := Option.some.inj h
        -- The digits move into the coefficient when the exponent is positive.
        have hscale : ((d.coefficient * 10 ^ d.exponent.toNat : Nat) : ℚ) * 10 ^ min d.exponent 0 =
            d.coefficient * 10 ^ d.exponent := by
          rcases le_total 0 d.exponent with hpos | hneg
          · obtain ⟨k, hk⟩ := Int.eq_ofNat_of_zero_le hpos
            rw [min_eq_right hpos, hk]
            simp
          · rw [min_eq_left hneg, Int.toNat_of_nonpos hneg]
            simp
        simp only [Decimal.toRat, hscale]

def numeric : NumericColumn := ⟨numericStore, fun _ _ h => numericStore_toRat h⟩

/-! ## Telemetry -/

/-- The time an event counts for: the device's, if its clock was synchronised. -/
def eventTime (measuredAt : Option Time) (clock : ClockQuality) (gatewayReceivedAt : Time) : Time :=
  match measuredAt with
  | some at_ => if clock = .synchronised then at_ else gatewayReceivedAt
  | none => gatewayReceivedAt

def TelemetryEvent.eventAt (item : TelemetryEvent) : Time :=
  eventTime item.measuredAt item.quality.clock item.gatewayReceivedAt

def Telemetry.eventAt (row : Telemetry) : Time :=
  eventTime row.measuredAt row.quality.clock row.gatewayReceivedAt

/-- The row an insertion makes. -/
def Telemetry.ofEvent (id : Nat) (schemaVersion : SchemaVersion) (item : TelemetryEvent)
    (value : Decimal) (backendReceivedAt : Time) : Telemetry where
  id := id
  schemaVersion := schemaVersion
  deviceId := item.deviceId
  bootId := item.bootId
  sequenceNumber := item.sequenceNumber
  measuredAt := item.measuredAt
  deviceUptimeMs := item.deviceUptimeMs
  gatewayReceivedAt := item.gatewayReceivedAt
  backendReceivedAt := backendReceivedAt
  metric := item.metric
  value := value
  unit := item.unit
  quality := item.quality

/-- A taken identity uses up an id. -/
def Db.burn (db : Db) : Db :=
  { db with
    nextTelemetryId := db.nextTelemetryId + 1
    telemetry_lt := fun r hr => Nat.lt_succ_of_lt (db.telemetry_lt r hr) }

/-- INSERT .. ON CONFLICT DO NOTHING RETURNING; an id is used up either way. -/
def Db.insertTelemetry (db : Db) (schemaVersion : SchemaVersion) (item : TelemetryEvent)
    (value : Decimal) (backendReceivedAt : Time) : Option Telemetry × Db :=
  let row := Telemetry.ofEvent db.nextTelemetryId schemaVersion item value backendReceivedAt
  match h : db.telemetry.insert row with
  | some telemetry =>
    (some row, { db with
      telemetry := telemetry
      nextTelemetryId := db.nextTelemetryId + 1
      telemetry_ids := by
        -- the id of the new row is larger than every other
        rw [(Table.insert_eq_some.mp h).2, List.map_append, List.nodup_append]
        refine ⟨db.telemetry_ids, List.nodup_singleton _, fun id hid id' hid' => ?_⟩
        obtain ⟨r, hr, rfl⟩ := List.mem_map.mp hid
        rw [List.mem_singleton.mp hid']
        exact (db.telemetry_lt r hr).ne
      telemetry_lt := by
        intro r hr
        rcases (Table.mem_insert h).mp hr with hold | rfl
        · exact Nat.lt_succ_of_lt (db.telemetry_lt r hold)
        · exact Nat.lt_succ_self _ })
  | none => (none, db.burn)

/-! ## Alert Tables -/

/-- What a statement raises, `DataError` apart: a violated constraint by its name in the schema, or
a row that had to be there and was not. -/
inductive DatabaseError where
  | check (name : String)
  | unique (name : String)
  | foreignKey (name : String)
  | noResult
deriving DecidableEq

def ensure (condition : Bool) (error : DatabaseError) : Except DatabaseError Unit :=
  if condition then .ok () else .error error

@[simp] theorem ensure_eq_ok {c : Bool} {v : DatabaseError} {u : Unit} :
    ensure c v = .ok u ↔ c = true := by
  cases c <;> simp [ensure]

def Db.hasDevice (db : Db) (deviceId : Identifier) : Bool := (db.devices.find? deviceId).isSome

def Db.hasTelemetry (db : Db) (id : Nat) : Bool := db.telemetry.rows.any fun row => row.id == id

/-- No other row satisfies the condition that a unique constraint forbids twice. -/
def noOther {ρ κ : Type} {key : ρ → κ} [DecidableEq κ] (t : Table key) (r : ρ) (clash : ρ → Bool) :
    Bool :=
  t.rows.all fun other => decide (key other = key r) || !clash other

/-- What PostgreSQL checks when a row of `alert_states` is written. -/
def Db.checkState (db : Db) (t : Table AlertState.deviceId) (s : AlertState) :
    Except DatabaseError Unit := do
  ensure (decide (s.highStreak ≤ 2)) (.check "high_streak_range")
  ensure (decide (s.recoveryStreak ≤ 2)) (.check "recovery_streak_range")
  -- NULLs are distinct in a unique constraint
  ensure (noOther t s fun other => other.activeEpisodeId.isSome &&
    other.activeEpisodeId == s.activeEpisodeId) (.unique "uq_alert_states_active_episode_id")
  ensure (db.hasDevice s.deviceId) (.foreignKey "device_id")
  ensure (s.activeEpisodeId.all fun id => (db.alerts.alertEpisodes.find? id).isSome)
    (.foreignKey "active_episode_id")

/-- What PostgreSQL checks when a row of `alert_episodes` is written. -/
def Db.checkEpisode (db : Db) (t : Table AlertEpisode.id) (e : AlertEpisode) :
    Except DatabaseError Unit := do
  ensure (e.resolvedAt.all fun at_ => decide (e.openedAt ≤ at_)) (.check "resolution_after_opening")
  ensure (noOther t e fun other => other.openingTelemetryId == e.openingTelemetryId)
    (.unique "uq_alert_episodes_opening_telemetry_id")
  ensure (noOther t e fun other => other.resolvingTelemetryId.isSome &&
    other.resolvingTelemetryId == e.resolvingTelemetryId)
    (.unique "uq_alert_episodes_resolving_telemetry_id")
  -- a partial index: one open episode for a device
  ensure (noOther t e fun other => e.resolvedAt.isNone && other.resolvedAt.isNone &&
    other.deviceId == e.deviceId) (.unique "uq_alert_episodes_active_device")
  ensure (db.hasDevice e.deviceId) (.foreignKey "device_id")
  ensure (db.hasTelemetry e.openingTelemetryId) (.foreignKey "opening_telemetry_id")
  ensure (e.resolvingTelemetryId.all db.hasTelemetry) (.foreignKey "resolving_telemetry_id")

/-- INSERT INTO alert_episodes, with the next id. -/
def Db.insertEpisode (db : Db) (deviceId : Identifier) (openedAt : Time)
    (openingTelemetryId : Nat) : Except DatabaseError (Nat × Db) := do
  let e : AlertEpisode :=
    ⟨db.alerts.nextEpisodeId, deviceId, openedAt, none, openingTelemetryId, none⟩
  db.checkEpisode db.alerts.alertEpisodes e
  match db.alerts.alertEpisodes.insert e with
  | none => throw (.unique "pk_alert_episodes")
  | some episodes =>
    return (e.id, { db with
      alerts := { db.alerts with
        alertEpisodes := episodes
        nextEpisodeId := db.alerts.nextEpisodeId + 1 } })

/-! ## Devices -/

/-- `record_presence`. -/
def Db.recordPresence (db : Db) (deviceId : Identifier) (seenAt : Time) : Db :=
  { db with
    devices := db.devices.update (fun d => decide (d.deviceId = deviceId))
      (fun d => { d with lastSeenAt := some seenAt }) fun _ => rfl }

/-- `lock_gateway_eligibility`: whether the gateway and its site are enabled. -/
def Db.gatewayEligibility (db : Db) (gatewayId : Identifier) : Option (Bool × Bool) := do
  let gateway ← db.gateways.find? gatewayId
  let site ← db.sites.find? gateway.siteId
  return (gateway.enabled, site.enabled)

end EquipmentMonitoring.Backend
