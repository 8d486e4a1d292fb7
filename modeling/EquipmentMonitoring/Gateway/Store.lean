import EquipmentMonitoring.Foundations.Sql
import EquipmentMonitoring.Foundations.Table
import EquipmentMonitoring.Gateway.Event
import Mathlib.Data.List.Sort

/-!
# The Gateway Queue (`sqlite/store.cpp`)

Events that arrive are inserted into `intake_events`; the forwarder claims the oldest pending rows,
and settles a claim by deleting the row, moving it to `quarantined_events`, or returning it to
pending. Each operation is one transaction; its statements are those of the source, with one call
for preparing, one for each bound parameter and one for stepping.

## Layers

- rows and tables
- `insert`, `loadPending`, `claimPending`, `releaseClaim`, `applyDecisions`, `openStore`
-/

namespace EquipmentMonitoring.Store

open EquipmentMonitoring.Telemetry

/-! ## Rows -/

inductive QueueState where
  | pending
  | inFlight
deriving DecidableEq

structure QueuedEvent where
  event : Event
  state : QueueState
  attemptCount : Int
deriving DecidableEq

structure QuarantinedEvent where
  event : Event
  attemptCount : Int
  reason : Bytes
  quarantinedAt : Bytes
deriving DecidableEq

/-- The primary key of both tables. -/
structure Identity where
  deviceId : Bytes
  bootId : Bytes
  sequenceNumber : Int
deriving DecidableEq

def identity (event : Event) : Identity := ⟨event.deviceId, event.bootId, event.sequenceNumber⟩

abbrev IntakeTable := Table fun r : QueuedEvent => identity r.event

abbrev QuarantineTable := Table fun r : QuarantinedEvent => identity r.event

structure Tables where
  intakeEvents : IntakeTable
  quarantinedEvents : QuarantineTable

/-! ## Inserting -/

inductive InsertResult where
  | inserted
  | duplicate
  | identityConflict
deriving DecidableEq

/-- Whether a recorded payload is the one that arrived again. -/
def compareContent (recorded arrived : Bytes) : InsertResult :=
  if recorded = arrived then .duplicate else .identityConflict

/-- INSERT .. ON CONFLICT DO NOTHING; the number of rows changed. -/
def insertIntake (event : Event) (t : Tables) : Except String (Nat × Tables) :=
  if event.sequenceNumber < 0 then .error "CHECK constraint failed: sequence_number >= 0"
  else
    match t.intakeEvents.insert ⟨event, .pending, 0⟩ with
    | some intake => .ok (1, { t with intakeEvents := intake })
    | none => .ok (0, t)

def insertBody (event : Event) : Sql Tables (Finish InsertResult) := do
  let quarantined ← Sql.query 5 fun t => t.quarantinedEvents.find? (identity event)
  match quarantined with
  -- a quarantined identity is never queued again
  | some row => return .rollback (compareContent row.event.mqttPayload event.mqttPayload)
  | none =>
    let changes ← Sql.statement 7 (insertIntake event)
    -- ON CONFLICT DO NOTHING reports no change for a known identity
    if changes = 1 then return .commit .inserted
    else
      let existing ← Sql.query 5 fun t => t.intakeEvents.find? (identity event)
      match existing with
      | none => Sql.raise "SQLite identity lookup failed"
      | some row => return .commit (compareContent row.event.mqttPayload event.mqttPayload)

def insert (event : Event) : Sql Tables InsertResult := Sql.transaction (insertBody event)

/-! ## Loading and Claiming -/

def maxBatchSize : Nat := 500

/-- The order of TEXT columns: octet by octet. -/
def textLe : Bytes → Bytes → Bool
  | [], _ => true
  | _ :: _, [] => false
  | a :: s, b :: t => decide (a < b) || (a == b && textLe s t)

/-- ORDER BY gateway_received_at, device_id, boot_id, sequence_number. -/
def pendingOrder (a b : QueuedEvent) : Bool :=
  if a.event.gatewayReceivedAt ≠ b.event.gatewayReceivedAt then
    textLe a.event.gatewayReceivedAt b.event.gatewayReceivedAt
  else if a.event.deviceId ≠ b.event.deviceId then textLe a.event.deviceId b.event.deviceId
  else if a.event.bootId ≠ b.event.bootId then textLe a.event.bootId b.event.bootId
  else decide (a.event.sequenceNumber ≤ b.event.sequenceNumber)

def isPending (r : QueuedEvent) : Bool := r.state == .pending

/-- The pending rows in the order of the query. -/
def pendingRows (t : Tables) : List QueuedEvent :=
  (t.intakeEvents.rows.filter isPending).insertionSort fun a b => pendingOrder a b = true

def validateLimit (limit : Nat) : Sql Tables Unit :=
  if limit = 0 ∨ maxBatchSize < limit then
    Sql.raise "SQLite queue batch limit must be between 1 and 500"
  else Sql.ok ()

/-- A row as read; a negative attempt count is refused. -/
def readRow (r : QueuedEvent) : Except String Unit :=
  if r.attemptCount < 0 then .error "SQLite queue contains a negative attempt count" else .ok ()

/-- The rows a query with this limit returns. -/
def oldestPending (limit : Nat) (t : Tables) : List QueuedEvent := (pendingRows t).take limit

def loadPending (limit : Nat) : Sql Tables (List QueuedEvent) := do
  validateLimit limit
  Sql.statement (limit + 3) fun t => do
    (oldestPending limit t).forM readRow
    return (oldestPending limit t, t)

/-- The row a claim or a settlement addresses: same identity, state and attempt count. -/
def matchesClaim (state : QueueState) (claimed r : QueuedEvent) : Bool :=
  decide (identity r.event = identity claimed.event) && r.state == state &&
    r.attemptCount == claimed.attemptCount

/-- A pending row once claimed. -/
def claimRow (r : QueuedEvent) : QueuedEvent :=
  { r with state := .inFlight, attemptCount := r.attemptCount + 1 }

/-- A claimed row once released. -/
def releaseRow (r : QueuedEvent) : QueuedEvent := { r with state := .pending }

theorem identity_claimRow (r : QueuedEvent) : identity (claimRow r).event = identity r.event := rfl

theorem identity_releaseRow (r : QueuedEvent) : identity (releaseRow r).event = identity r.event :=
  rfl

/-- UPDATE of the rows a claim addresses; the number of rows changed. -/
def updateClaim (state : QueueState) (claimed : QueuedEvent) (f : QueuedEvent → QueuedEvent)
    (hf : ∀ r, identity (f r).event = identity r.event) (t : Tables) : Nat × Tables :=
  (t.intakeEvents.count (matchesClaim state claimed),
    { t with intakeEvents := t.intakeEvents.update (matchesClaim state claimed) f hf })

/-- DELETE of the rows a claim addresses; the number of rows changed. -/
def deleteClaim (claimed : QueuedEvent) (t : Tables) : Nat × Tables :=
  (t.intakeEvents.count (matchesClaim .inFlight claimed),
    { t with intakeEvents := t.intakeEvents.delete (matchesClaim .inFlight claimed) })

def maxAttemptCount : Int := 2 ^ 63 - 1

def claimOne (row : QueuedEvent) : Sql Tables Unit :=
  if row.attemptCount = maxAttemptCount then Sql.raise "SQLite queue attempt count overflow"
  else do
    let changes ← Sql.statement 6 fun t =>
      .ok (updateClaim .pending row claimRow identity_claimRow t)
    if changes = 1 then Sql.ok () else Sql.raise "cannot claim pending SQLite queue row"

def claimBody (limit : Nat) : Sql Tables (Finish (List QueuedEvent)) := do
  let rows ← loadPending limit
  rows.forM claimOne
  return .commit (rows.map claimRow)

def claimPending (limit : Nat) : Sql Tables (List QueuedEvent) := Sql.transaction (claimBody limit)

/-! ## Settling -/

def releaseBody (claimed : QueuedEvent) : Sql Tables (Finish Bool) := do
  let changes ← Sql.statement 6 fun t =>
    .ok (updateClaim .inFlight claimed releaseRow identity_releaseRow t)
  return .commit (changes == 1)

def releaseClaim (claimed : QueuedEvent) : Sql Tables Bool :=
  if claimed.state ≠ .inFlight then
    Sql.raise "only an in-flight SQLite queue row can be released"
  else Sql.transaction (releaseBody claimed)

inductive DeliveryAction where
  | accepted
  | duplicate
  | rejected
  | retry
deriving DecidableEq

structure DeliveryDecision where
  action : DeliveryAction
  reason : Bytes
deriving DecidableEq

/-- INSERT INTO quarantined_events at the time `now`. -/
def insertQuarantine (now : Bytes) (row : QueuedEvent) (reason : Bytes) (t : Tables) :
    Except String (Unit × Tables) :=
  match t.quarantinedEvents.insert ⟨row.event, row.attemptCount, reason, now⟩ with
  | some quarantine => .ok ((), { t with quarantinedEvents := quarantine })
  | none => .error "UNIQUE constraint failed"

/-- The part of the loop before the queue row is touched. -/
def quarantineIfRejected (now : Bytes) (row : QueuedEvent) (decision : DeliveryDecision) :
    Sql Tables Unit :=
  if decision.action = .rejected then
    if decision.reason = [] then Sql.raise "rejected delivery requires a reason"
    else Sql.statement 9 (insertQuarantine now row decision.reason)
  else if decision.reason ≠ [] then Sql.raise "non-rejected delivery cannot have a reason"
  else Sql.ok ()

/-- Return the queue row to pending, or remove it. -/
def settleRow (row : QueuedEvent) (action : DeliveryAction) (t : Tables) : Nat × Tables :=
  if action = .retry then updateClaim .inFlight row releaseRow identity_releaseRow t
  else deleteClaim row t

/-- One round of the loop: a claimed row with its decision. -/
def applyOne (now : Bytes) (settled : QueuedEvent × DeliveryDecision) : Sql Tables Unit :=
  if settled.1.state ≠ .inFlight ∨ settled.1.attemptCount ≤ 0 then
    Sql.raise "delivery decision requires an in-flight claim"
  else do
    quarantineIfRejected now settled.1 settled.2
    let changes ← Sql.statement 6 fun t => .ok (settleRow settled.1 settled.2.action t)
    if changes = 1 then Sql.ok ()
    else Sql.raise "delivery claim changed before outcome was applied"

def applyBody (now : Bytes) (settled : List (QueuedEvent × DeliveryDecision)) :
    Sql Tables (Finish Unit) := do
  settled.forM (applyOne now)
  return .commit ()

def applyDecisions (now : Bytes) (claimed : List QueuedEvent) (decisions : List DeliveryDecision) :
    Sql Tables Unit :=
  if claimed.length ≠ decisions.length ∨ claimed = [] ∨ maxBatchSize < claimed.length then
    Sql.raise "delivery decisions must match a nonempty claimed batch"
  else Sql.transaction (applyBody now (claimed.zip decisions))

/-! ## Counting and Opening -/

def queueDepth : Sql Tables Nat := Sql.query 2 fun t => t.intakeEvents.rows.length

/-- `initialize_schema` on tables of the current version: abandoned claims return to pending. -/
def schemaBody : Sql Tables (Finish Unit) := do
  let invalid ← Sql.query 12 fun t => t.intakeEvents.count fun r => decide (r.attemptCount < 0)
  if invalid ≠ 0 then Sql.raise "SQLite queue contains invalid state or attempt count"
  else
    -- a claim does not outlive the process that made it
    Sql.statement 2 fun t =>
      .ok ((), { t with
        intakeEvents := t.intakeEvents.update (fun r => r.state == .inFlight) releaseRow
          identity_releaseRow })
    return .commit ()

def initializeSchema : Sql Tables Unit := Sql.transaction schemaBody

/-- The constructor: the file is opened, WAL mode and two settings are made, then the schema. -/
def openStore : Sql Tables Unit := do
  Sql.calls 6
  initializeSchema

end EquipmentMonitoring.Store
