import EquipmentMonitoring.Backend.Alerts

/-!
# Ingestion (`ingest_batch` in `telemetry/service.py`)

One transaction a batch. Items are classified in order: by the registry, by the NUMERIC column, by
the unique identity; a new row advances the device's alert state and, if the gateway sent it
recently, its presence.

## Layers

- `insertEvent`, `readExistingEvent`, `matchesContent`: one row
- `ingestItem`, `ingestItems`: the loop
- `ingestBatch`: the transaction
-/

namespace EquipmentMonitoring.Backend

/-! ## Rows -/

inductive InsertOutcome where
  | dataError
  | conflict
  | inserted (row : Telemetry)

/-- `insert_event`: a savepoint is set, which flushes, and the row inserted unless the identity is
taken. -/
def insertEvent (pg : NumericColumn) (s : Session) (schemaVersion : SchemaVersion)
    (item : TelemetryEvent) (backendReceivedAt : Time) :
    Except DatabaseError (InsertOutcome × Session) := do
  let s ← s.flush
  match pg.store item.value with
  -- the column cannot hold the value; the savepoint takes the failed insert back
  | none => return (.dataError, s)
  | some value =>
    match s.db.insertTelemetry schemaVersion item value backendReceivedAt with
    | (some row, db) => return (.inserted row, { s with db := db })
    | (none, db) => return (.conflict, { s with db := db })

/-- `read_existing_event`. -/
def readExistingEvent (db : Db) (identity : Identity) : Except DatabaseError Telemetry :=
  match db.telemetry.find? identity with
  | some row => .ok row
  | none => .error .noResult

/-- Equality of the `IMMUTABLE_CONTENT_FIELDS`; numbers are equal whatever their scales. -/
def matchesContent (row : Telemetry) (schemaVersion : SchemaVersion) (item : TelemetryEvent) :
    Bool :=
  row.schemaVersion == schemaVersion && row.measuredAt == item.measuredAt &&
    row.deviceUptimeMs == item.deviceUptimeMs && row.metric == item.metric &&
    row.value.numEq item.value && row.unit == item.unit && row.quality == item.quality

/-! ## Items -/

/-- `clock_timestamp()` at the insertion of each item, and at its presence update. -/
structure Clock where
  insertion : Nat → Time
  presence : Nat → Time

/-- What stays the same for all items of a batch. -/
structure Ingestion where
  pg : NumericColumn
  clock : Clock
  gatewayId : Identifier
  schemaVersion : SchemaVersion
  assignments : List Device

def maxPresenceAge : Time := microseconds 90

/-- `record_presence` when the gateway got the reading recently; the statement flushes first. -/
def presence (s : Session) (item : TelemetryEvent) (backendReceivedAt seenAt : Time) :
    Except DatabaseError Session :=
  let receivedAge := backendReceivedAt - item.gatewayReceivedAt
  if 0 ≤ receivedAge ∧ receivedAge ≤ maxPresenceAge then do
    let s ← s.flush
    return { s with db := s.db.recordPresence item.deviceId seenAt }
  else .ok s

/-- Why the registry refuses an event, if it does. -/
def Ingestion.refusal (i : Ingestion) (item : TelemetryEvent) : Option ItemReason :=
  match i.assignments.find? fun d => decide (d.deviceId = item.deviceId) with
  | none => some .unknownDevice
  | some device =>
    if device.gatewayId ≠ i.gatewayId ∨ device.enabled = false then some .wrongGateway else none

/-- An event the registry admits. -/
def Ingestion.storeEvent (i : Ingestion) (index : Nat) (s : Session) (item : TelemetryEvent) :
    Except DatabaseError (TelemetryResponseItem × Session) := do
  match ← insertEvent i.pg s i.schemaVersion item (i.clock.insertion index) with
  | (.dataError, s) => return (.rejected item.identity .malformedValue, s)
  -- the identity is taken: compared with the row that has it
  | (.conflict, s) =>
    let existing ← readExistingEvent s.db item.identity
    if matchesContent existing i.schemaVersion item then
      return (.confirmed item.identity .duplicate (by decide), s)
    else return (.rejected item.identity .identityConflict, s)
  | (.inserted row, s) =>
    -- the alerts are advanced before the presence is recorded
    let s ← evaluateAcceptedReading s item row.id row.backendReceivedAt
    let s ← presence s item row.backendReceivedAt (i.clock.presence index)
    return (.confirmed item.identity .accepted (by decide), s)

def Ingestion.ingestItem (i : Ingestion) (index : Nat) (s : Session) (item : BatchItem) :
    Except DatabaseError (TelemetryResponseItem × Session) :=
  match item with
  | .response item => .ok (item, s)
  | .event item =>
    match i.refusal item with
    | some reason => .ok (.rejected item.identity reason, s)
    | none => i.storeEvent index s item

def Ingestion.ingestItems (i : Ingestion) : Nat → Session → List BatchItem →
    Except DatabaseError (List TelemetryResponseItem × Session)
  | _, s, [] => .ok ([], s)
  | index, s, item :: rest => do
    let (result, s) ← i.ingestItem index s item
    let (results, s) ← i.ingestItems (index + 1) s rest
    return (result :: results, s)

/-! ## Batches -/

inductive IngestError where
  | gatewayForbidden
  | database (error : DatabaseError)
deriving DecidableEq

/-- `device_ids`. -/
def ValidatedTelemetryBatch.deviceIds (batch : ValidatedTelemetryBatch) : List Identifier :=
  batch.items.filterMap fun item =>
    match item with
    | .event item => some item.deviceId
    | .response _ => none

/-- `lock_assignments`: the registered devices among those of the batch. -/
def Db.lockAssignments (db : Db) (deviceIds : List Identifier) : List Device :=
  db.devices.rows.filter fun d => decide (d.deviceId ∈ deviceIds)

/-- The transaction; an exception rolls it back, so that `db` stays. -/
def ingestBatch (pg : NumericColumn) (clock : Clock) (db : Db) (gatewayId : Identifier)
    (batch : ValidatedTelemetryBatch) (batchId : Identifier) :
    Except IngestError (TelemetryBatchResponse × Db) :=
  match db.gatewayEligibility gatewayId with
  | some (true, true) =>
    let i : Ingestion :=
      ⟨pg, clock, gatewayId, batch.schemaVersion, db.lockAssignments batch.deviceIds⟩
    let committed : Except DatabaseError (TelemetryBatchResponse × Db) := do
      let (results, s) ← i.ingestItems 0 (Session.start db) batch.items
      -- the commit writes what the last item left in the session
      let s ← s.flush
      return (⟨batchId, results⟩, s.db)
    committed.mapError .database
  | _ => .error .gatewayForbidden

/-! ## A Batch -/

/-- A column that keeps every number as it is. -/
def exactColumn : NumericColumn := ⟨some, fun _ _ h => by rw [Option.some.inj h]⟩

def sampleClock : Clock := ⟨fun _ => 0, fun _ => 0⟩

def sampleGateway : Identifier := ⟨ascii "g-1", by decide⟩

def sampleDevice : Identifier := ⟨ascii "d-1", by decide⟩

def sampleBoot : Identifier := ⟨ascii "b-1", by decide⟩

def sampleDb : Db where
  sites := ⟨[⟨⟨ascii "s-1", by decide⟩, true⟩], by decide⟩
  gateways := ⟨[⟨sampleGateway, ⟨ascii "s-1", by decide⟩, true⟩], by decide⟩
  devices := ⟨[⟨sampleDevice, sampleGateway, true, none⟩], by decide⟩
  telemetry := Table.empty
  nextTelemetryId := 1
  alerts := ⟨Table.empty, Table.empty, 1⟩
  telemetry_ids := List.nodup_nil
  telemetry_lt := by simp

/-- A reading of 31 degrees, at a second of its own. -/
def sampleReading (second : Fin 60) : TelemetryEvent where
  deviceId := sampleDevice
  bootId := sampleBoot
  sequenceNumber := ⟨second, by have := second.isLt; simp only [maxCounter]; omega⟩
  measuredAt := none
  deviceUptimeMs := ⟨0, by decide⟩
  gatewayReceivedAt := second.val - 60
  metric := .temperature
  value := ⟨false, 31, 0⟩
  unit := .celsius
  quality := ⟨.valid, .unknown⟩

def sampleSeconds : List (Fin 60) := [1, 2, 2, 3]

/-- The first reading of the sample. -/
def firstReading : TelemetryEvent := sampleReading 1

/-- Three readings, the second of them twice. -/
def sampleBatch : ValidatedTelemetryBatch where
  schemaVersion := .v1
  items := sampleSeconds.map fun second => .event (sampleReading second)
  nonempty := by simp [sampleSeconds]
  size := by decide
  rejections := by simp

/-- The third reading opens an episode. -/
example : (match ingestBatch exactColumn sampleClock sampleDb sampleGateway sampleBatch
      sampleBoot with
    | .ok (response, db) => (response.results.map TelemetryResponseItem.outcome,
        db.alerts.alertEpisodes.rows.map AlertEpisode.openingTelemetryId)
    | .error _ => ([], [])) =
    ([.accepted, .accepted, .duplicate, .accepted], [4]) := by
  decide +kernel

theorem sampleBatch_commits :
    ∃ response db, ingestBatch exactColumn sampleClock sampleDb sampleGateway sampleBatch sampleBoot =
      .ok (response, db) ∧ db.alerts.alertEpisodes.rows.length = 1 := by
  have hcount : (match ingestBatch exactColumn sampleClock sampleDb sampleGateway sampleBatch
      sampleBoot with
    | .ok (_, db) => db.alerts.alertEpisodes.rows.length == 1
    | .error _ => false) = true := by
    decide +kernel
  split at hcount
  · next response db hok => exact ⟨response, db, hok, eq_of_beq hcount⟩
  · exact absurd hcount (by simp)

end EquipmentMonitoring.Backend
