import EquipmentMonitoring.Foundations.Decimal
import EquipmentMonitoring.Foundations.Utf8

/-!
# Wire Models (`telemetry/schemas.py`)

The values that remain once a request body has been validated. What validation has checked is
part of the type: an identifier that is too long, a counter out of range or a rejection without a
reason cannot be built. Times are instants in UTC, in microseconds.
-/

namespace EquipmentMonitoring.Backend

abbrev Time := Int

def microseconds (seconds : Int) : Time := seconds * 1000000

/-! ## Scalars -/

def maxIdentifierLength : Nat := 128

/-- A text of 1 to 128 characters without NUL. -/
def isIdentifier (text : Bytes) : Bool :=
  Utf8.valid text && !text.isEmpty && decide (Utf8.length text ≤ maxIdentifierLength) &&
    !text.contains 0

structure Identifier where
  text : Bytes
  valid : isIdentifier text = true
deriving DecidableEq

theorem Identifier.utf8 (id : Identifier) : Utf8.valid id.text = true := by
  have h := id.valid
  simp only [isIdentifier, Bool.and_eq_true] at h
  exact h.1.1.1

theorem Identifier.ne_nil (id : Identifier) : id.text ≠ [] := by
  have h := id.valid
  simp only [isIdentifier, Bool.and_eq_true, Bool.not_eq_true', List.isEmpty_eq_false_iff] at h
  exact h.1.1.2

theorem Identifier.noNul (id : Identifier) : 0 ∉ id.text := by
  have h := id.valid
  simp only [isIdentifier, Bool.and_eq_true, Bool.not_eq_true', List.contains_eq_mem,
    decide_eq_false_iff_not] at h
  exact h.2

def maxCounter : Nat := 2 ^ 63 - 1

structure Counter where
  value : Nat
  le : value ≤ maxCounter
deriving DecidableEq

inductive ClockQuality where
  | synchronised
  | unsynchronised
  | estimated
  | unknown
deriving DecidableEq

/-- `Literal["valid"]`. -/
inductive ReadingQuality where
  | valid
deriving DecidableEq

/-- `Literal["temperature"]`. -/
inductive Metric where
  | temperature
deriving DecidableEq

/-- `Literal["celsius"]`. -/
inductive MeasurementUnit where
  | celsius
deriving DecidableEq

/-- `Literal[1]`. -/
inductive SchemaVersion where
  | v1
deriving DecidableEq

/-! ## Events -/

structure TelemetryQuality where
  reading : ReadingQuality
  clock : ClockQuality
deriving DecidableEq

structure TelemetryEvent where
  deviceId : Identifier
  bootId : Identifier
  sequenceNumber : Counter
  measuredAt : Option Time
  deviceUptimeMs : Counter
  gatewayReceivedAt : Time
  metric : Metric
  value : Decimal
  unit : MeasurementUnit
  quality : TelemetryQuality
deriving DecidableEq

/-- Device, boot and sequence number: the identity of an event. -/
structure Identity where
  deviceId : Identifier
  bootId : Identifier
  sequenceNumber : Counter
deriving DecidableEq

def TelemetryEvent.identity (item : TelemetryEvent) : Identity :=
  ⟨item.deviceId, item.bootId, item.sequenceNumber⟩

/-! ## Responses -/

inductive Outcome where
  | accepted
  | duplicate
  | rejected
deriving DecidableEq

inductive ItemReason where
  | unknownDevice
  | wrongGateway
  | invalidMetric
  | invalidUnit
  | valueOutOfRange
  | malformedValue
  | identityConflict
deriving DecidableEq

/-- One result; only a malformed value may leave parts of the identity out. -/
structure TelemetryResponseItem where
  deviceId : Option Identifier
  bootId : Option Identifier
  sequenceNumber : Option Counter
  outcome : Outcome
  reason : Option ItemReason
  reason_iff : reason.isSome = true ↔ outcome = .rejected
  complete : reason ≠ some .malformedValue →
    deviceId.isSome = true ∧ bootId.isSome = true ∧ sequenceNumber.isSome = true
deriving DecidableEq

namespace TelemetryResponseItem

/-- `TelemetryResponseItem(**identity, outcome=outcome)`. -/
def confirmed (identity : Identity) (outcome : Outcome) (h : outcome ≠ .rejected) :
    TelemetryResponseItem where
  deviceId := some identity.deviceId
  bootId := some identity.bootId
  sequenceNumber := some identity.sequenceNumber
  outcome := outcome
  reason := none
  reason_iff := by simp [h]
  complete := by simp

/-- `TelemetryResponseItem(**identity, outcome="rejected", reason=reason)`. -/
def rejected (identity : Identity) (reason : ItemReason) : TelemetryResponseItem where
  deviceId := some identity.deviceId
  bootId := some identity.bootId
  sequenceNumber := some identity.sequenceNumber
  outcome := .rejected
  reason := some reason
  reason_iff := by simp
  complete := by simp

end TelemetryResponseItem

/-! ## Batches -/

def maxBatchSize : Nat := 500

/-- What validation made of one item: an event, or its final rejection. -/
inductive BatchItem where
  | event (item : TelemetryEvent)
  | response (item : TelemetryResponseItem)
deriving DecidableEq

/-- A batch whose items have been validated; the only results it holds are rejections. -/
structure ValidatedTelemetryBatch where
  schemaVersion : SchemaVersion
  items : List BatchItem
  nonempty : items ≠ []
  size : items.length ≤ maxBatchSize
  rejections : ∀ result, BatchItem.response result ∈ items → result.outcome = .rejected

structure TelemetryBatchResponse where
  batchId : Identifier
  results : List TelemetryResponseItem

end EquipmentMonitoring.Backend
