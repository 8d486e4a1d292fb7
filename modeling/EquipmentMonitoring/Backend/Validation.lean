import EquipmentMonitoring.Backend.Loads
import EquipmentMonitoring.Backend.Schemas
import EquipmentMonitoring.Foundations.Checked
import EquipmentMonitoring.Foundations.Json.Value
import EquipmentMonitoring.Foundations.StampText

/-!
# Telemetry Validation (`telemetry/validation.py`)

A body is decoded, its envelope validated, and then each item by itself: a valid item becomes an
event, any other a rejection that carries what can be told of its identity. Models validate as
pydantic does: every field is checked and every error reported, with its place and its code.

## Layers

- `Identifier`, `Counter`, `Timestamp`, `Temperature`, literals: scalar fields
- `validateEvent`: the event model, `EventFields` what it has checked
- `validateTelemetryItem`: an event or its rejection
- `parseTelemetryBatch`: the body
-/

namespace EquipmentMonitoring.Backend

open EquipmentMonitoring.Json

/-! ## Errors -/

/-- The `type` of a validation error. -/
inductive ErrorCode where
  | missing
  | extraForbidden
  | modelType
  | stringType
  | stringUnicode
  | stringTooShort
  | stringTooLong
  | stringPatternMismatch
  | intType
  /-- An integer is beyond the range integers are compared in. -/
  | intParsingSize
  | greaterThanEqual
  | lessThanEqual
  /-- A validator of the model's own has raised `ValueError`. -/
  | valueError
  /-- A text in the form of a timestamp is no time of the calendar. -/
  | datetimeParsing
  | literalError
  | listType
  | tooShort
  | tooLong
deriving DecidableEq

/-- Where an error is, from the outside in, and what it is. -/
structure ValidationDetail where
  loc : List Bytes
  code : ErrorCode
deriving DecidableEq

/-- What validation makes of a value. -/
abbrev Validated (α : Type) := Checked ValidationDetail α

/-! ## Scalars -/

/-- The first check of `Identifier` that fails. -/
def identifierFault (text : Bytes) : ErrorCode :=
  if Utf8.valid text = false then .stringUnicode
  else if text = [] then .stringTooShort
  else if maxIdentifierLength < Utf8.length text then .stringTooLong
  else .stringPatternMismatch

/-- `Identifier`. -/
def readIdentifier : Value → Except ErrorCode Identifier
  | .string text =>
    if h : isIdentifier text = true then .ok ⟨text, h⟩ else .error (identifierFault text)
  | _ => .error .stringType

/-- `Counter`; a literal with a fraction or an exponent is no `int`. -/
def readCounter : Value → Except ErrorCode Counter
  | .number n =>
    if n.isIntegral then
      if n.intValue < 0 then .error .greaterThanEqual
      else if h : n.intValue.toNat ≤ maxCounter then .ok ⟨n.intValue.toNat, h⟩
      else .error .lessThanEqual
    else .error .intType
  | _ => .error .intType

/-- `Timestamp`: the pattern, then the calendar, then UTC. -/
def readTimestamp : Value → Except ErrorCode Time
  | .string text =>
    match Rfc3339.instantOf text with
    | some instant => .ok instant
    | none => .error (if (Rfc3339.readStamp text).isSome then .datetimeParsing else .valueError)
  | _ => .error .valueError

/-- `Timestamp | None`. -/
def readNullable {α : Type} (read : Value → Except ErrorCode α) : Value → Except ErrorCode (Option α)
  | .null => .ok none
  | v => (read v).map some

/-- `Decimal(str(value))`, for the `int` or `Decimal` that was loaded. -/
def loadedDecimal (n : Number) : Decimal :=
  if n.isIntegral then ⟨decide (n.intValue < 0), n.int.value, 0⟩ else n.toDecimal

theorem abs_loadedDecimal (n : Number) :
    |(loadedDecimal n).toRat| = (n.coefficient : ℚ) * 10 ^ n.exponent := by
  rw [Decimal.abs_toRat, loadedDecimal]
  split
  · next h => rw [n.coefficient_of_integral h, n.exponent_of_integral h]
  · rfl

/-- `Temperature`; every number that loads is finite. -/
def readTemperature : Value → Except ErrorCode Decimal
  | .number n => .ok (loadedDecimal n)
  | _ => .error .valueError

/-- One of the given texts. A string with a lone surrogate is not looked up at all. -/
def readLiteral {α : Type} (options : List (Bytes × α)) : Value → Except ErrorCode α
  | .string text =>
    if Utf8.valid text = false then .error .stringUnicode
    else
      match options.find? fun o => o.1 == text with
      | some o => .ok o.2
      | none => .error .literalError
  | _ => .error .literalError

def metrics : List (Bytes × Metric) := [(ascii "temperature", .temperature)]

def measurementUnits : List (Bytes × MeasurementUnit) := [(ascii "celsius", .celsius)]

def readingQualities : List (Bytes × ReadingQuality) := [(ascii "valid", .valid)]

def clockQualities : List (Bytes × ClockQuality) :=
  [(ascii "synchronised", .synchronised), (ascii "unsynchronised", .unsynchronised),
    (ascii "estimated", .estimated), (ascii "unknown", .unknown)]

/-! ## What Was Read -/

theorem readIdentifier_eq_ok {v : Value} {id : Identifier} (h : readIdentifier v = .ok id) :
    v = .string id.text := by
  cases v with
  | string text =>
    simp only [readIdentifier] at h
    split at h
    · rw [← Except.ok.inj h]
    · simp at h
  | _ => simp [readIdentifier] at h

theorem readCounter_eq_ok {v : Value} {c : Counter} (h : readCounter v = .ok c) :
    ∃ n, v = .number n ∧ n.isIntegral = true ∧ n.intValue = c.value := by
  cases v with
  | number n =>
    refine ⟨n, rfl, ?_⟩
    simp only [readCounter] at h
    split at h
    · next hintegral =>
      split at h
      · simp at h
      · next hnonneg =>
        split at h
        · rw [← Except.ok.inj h]
          exact ⟨hintegral, (Int.toNat_of_nonneg (Int.not_lt.mp hnonneg)).symm⟩
        · simp at h
    · simp at h
  | _ => simp [readCounter] at h

/-- A counter in range is read. -/
theorem readCounter_of {n : Number} {c : Counter} (hintegral : n.isIntegral = true)
    (hvalue : n.intValue = c.value) : readCounter (.number n) = .ok c := by
  have hnat : n.intValue.toNat = c.value := by omega
  have hle : n.intValue.toNat ≤ maxCounter := hnat ▸ c.le
  simp only [readCounter, if_pos hintegral, if_neg (by omega : ¬ n.intValue < 0), dif_pos hle]
  cases c
  simp only at hnat
  simp only [hnat]

theorem readIdentifier_text (id : Identifier) : readIdentifier (.string id.text) = .ok id := by
  simp only [readIdentifier, dif_pos id.valid]

theorem readLiteral_eq_ok {α : Type} {options : List (Bytes × α)} {v : Value} {a : α}
    (h : readLiteral options v = .ok a) : ∃ text, v = .string text ∧ (text, a) ∈ options := by
  cases v with
  | string text =>
    simp only [readLiteral] at h
    split at h
    · simp at h
    · split at h
      · next o ho =>
        have htext : o.1 = text := by simpa using List.find?_some ho
        exact ⟨text, rfl, by rw [← htext, ← Except.ok.inj h]; exact List.mem_of_find?_eq_some ho⟩
      · simp at h
  | _ => simp [readLiteral] at h

theorem readTimestamp_eq_ok {v : Value} {t : Time} (h : readTimestamp v = .ok t) :
    ∃ x : Rfc3339.StampText, v = .string x.render ∧ x.stamp.valid = true ∧ x.stamp.instant = t := by
  cases v with
  | string text =>
    simp only [readTimestamp] at h
    split at h
    · next instant hinstant =>
      obtain ⟨x, rfl, hvalid, -, rfl⟩ := Rfc3339.instantOf_eq_some.mp hinstant
      exact ⟨x, rfl, hvalid, Except.ok.inj h⟩
    · simp at h
  | _ => simp [readTimestamp] at h

theorem readTemperature_eq_ok {v : Value} {d : Decimal} (h : readTemperature v = .ok d) :
    ∃ n, v = .number n ∧ loadedDecimal n = d := by
  cases v with
  | number n => exact ⟨n, rfl, Except.ok.inj h⟩
  | _ => simp [readTemperature] at h

/-- A measurement time is null or spells a time of the calendar. -/
theorem readMeasuredAt_eq_ok {v : Value} {t : Option Time}
    (h : readNullable readTimestamp v = .ok t) :
    v = .null ∨ ∃ x : Rfc3339.StampText, v = .string x.render ∧ x.stamp.valid = true := by
  cases v with
  | null => exact .inl rfl
  | string text =>
    right
    simp only [readNullable] at h
    cases hread : readTimestamp (.string text) with
    | ok instant =>
      obtain ⟨x, hx, hvalid, -⟩ := readTimestamp_eq_ok hread
      exact ⟨x, hx, hvalid⟩
    | error code => simp [hread, Except.map] at h
  | _ => simp [readNullable, readTimestamp, Except.map] at h

/-! ## Models -/

section Models

variable {α : Type}

/-- An error a field's name is put in front of. -/
def ValidationDetail.inside (name : Bytes) (error : ValidationDetail) : ValidationDetail :=
  { error with loc := name :: error.loc }

/-- A required field. -/
def field (payload : Value) (name : Bytes) (read : Value → Validated α) : Validated α :=
  match payload.get? name with
  | none => .fail ⟨[name], .missing⟩
  | some v => (read v).mapErrors (ValidationDetail.inside name)

/-- A check of the value itself. -/
def scalar (read : Value → Except ErrorCode α) (v : Value) : Validated α :=
  .ofExcept ((read v).mapError fun code => ⟨[], code⟩)

/-- `extra="forbid"`. -/
def forbidden (names : List Bytes) (payload : Value) : List ValidationDetail :=
  (payload.members.filter fun m => !names.contains m.1).map fun m => ⟨[m.1], .extraForbidden⟩

/-- `model_validate` of a contract model with the given fields. -/
def model (names : List Bytes) (build : Value → Validated α) (payload : Value) : Validated α :=
  match payload with
  | .object members =>
    (fun a _ => a) <$> build (.object members) <*>
      .ofErrors (forbidden names (.object members)) ()
  | _ => .fail ⟨[], .modelType⟩

theorem field_eq_valid {payload : Value} {name : Bytes} {read : Value → Validated α} {a : α} :
    field payload name read = .valid a ↔
      ∃ v, payload.get? name = some v ∧ read v = .valid a := by
  unfold field
  cases payload.get? name <;> simp [Checked.fail]

theorem scalar_eq_valid {read : Value → Except ErrorCode α} {v : Value} {a : α} :
    scalar read v = .valid a ↔ read v = .ok a := by
  rw [scalar, Checked.ofExcept_eq_valid]
  cases read v <;> simp [Except.mapError]

theorem model_eq_valid {names : List Bytes} {build : Value → Validated α} {payload : Value} {a : α} :
    model names build payload = .valid a ↔
      (∃ members, payload = .object members) ∧ build payload = .valid a ∧
        ∀ name ∈ payload.members.map Prod.fst, name ∈ names := by
  unfold model
  cases payload with
  | object members =>
    simp only [Checked.seq_eq_valid, Checked.map_eq_valid, Checked.ofErrors_eq_valid, forbidden,
      List.map_eq_nil_iff, List.filter_eq_nil_iff]
    constructor
    · rintro ⟨f, ⟨⟩, ⟨a', hbuild, rfl⟩, ⟨hextra, -⟩, rfl⟩
      -- no name is forbidden, so every name is a field's
      refine ⟨⟨members, rfl⟩, hbuild, fun name hname => ?_⟩
      obtain ⟨m, hm, rfl⟩ := List.mem_map.mp hname
      simpa using hextra m hm
    · rintro ⟨-, hbuild, hnames⟩
      refine ⟨_, (), ⟨a, hbuild, rfl⟩, ⟨fun m hm => ?_, trivial⟩, rfl⟩
      simpa using hnames m.1 (List.mem_map_of_mem hm)
  | _ => simp [Checked.fail]

/-- The errors of a field begin with its name. -/
theorem field_errors {payload : Value} {name : Bytes} {read : Value → Validated α}
    {e : ValidationDetail} (he : e ∈ (field payload name read).errors) :
    e.loc.head? = some name := by
  unfold field at he
  split at he
  · simp only [Checked.fail, Checked.errors, List.mem_singleton] at he
    rw [he]
    rfl
  · rw [Checked.errors_mapErrors, List.mem_map] at he
    obtain ⟨e', -, rfl⟩ := he
    rfl

end Models

/-! ## Events -/

def qualityFields : List Bytes := [ascii "reading", ascii "clock"]

/-- `TelemetryQuality`. -/
def validateQuality : Value → Validated TelemetryQuality :=
  model qualityFields fun payload =>
    TelemetryQuality.mk <$> field payload (ascii "reading") (scalar (readLiteral readingQualities))
      <*> field payload (ascii "clock") (scalar (readLiteral clockQualities))

def eventFields : List Bytes :=
  [ascii "device_id", ascii "boot_id", ascii "sequence_number", ascii "measured_at",
    ascii "device_uptime_ms", ascii "gateway_received_at", ascii "metric", ascii "value",
    ascii "unit", ascii "quality"]

/-- The fields of `TelemetryEvent`. -/
def buildEvent (payload : Value) : Validated TelemetryEvent :=
  TelemetryEvent.mk <$> field payload (ascii "device_id") (scalar readIdentifier)
    <*> field payload (ascii "boot_id") (scalar readIdentifier)
    <*> field payload (ascii "sequence_number") (scalar readCounter)
    <*> field payload (ascii "measured_at") (scalar (readNullable readTimestamp))
    <*> field payload (ascii "device_uptime_ms") (scalar readCounter)
    <*> field payload (ascii "gateway_received_at") (scalar readTimestamp)
    <*> field payload (ascii "metric") (scalar (readLiteral metrics))
    <*> field payload (ascii "value") (scalar readTemperature)
    <*> field payload (ascii "unit") (scalar (readLiteral measurementUnits))
    <*> field payload (ascii "quality") validateQuality

/-- `TelemetryEvent.model_validate`. -/
def validateEvent : Value → Validated TelemetryEvent := model eventFields buildEvent

/-- The payload has a field, and its value reads as `a`. -/
def Reads {α : Type} (payload : Value) (name : String) (read : Value → Except ErrorCode α) (a : α) :
    Prop :=
  ∃ v, payload.get? (ascii name) = some v ∧ read v = .ok a

/-- What validation has checked of an event. -/
structure EventFields (payload : Value) (event : TelemetryEvent) : Prop where
  object : ∃ members, payload = .object members
  names : ∀ name ∈ payload.members.map Prod.fst, name ∈ eventFields
  deviceId : Reads payload "device_id" readIdentifier event.deviceId
  bootId : Reads payload "boot_id" readIdentifier event.bootId
  sequenceNumber : Reads payload "sequence_number" readCounter event.sequenceNumber
  measuredAt : Reads payload "measured_at" (readNullable readTimestamp) event.measuredAt
  deviceUptimeMs : Reads payload "device_uptime_ms" readCounter event.deviceUptimeMs
  gatewayReceivedAt : Reads payload "gateway_received_at" readTimestamp event.gatewayReceivedAt
  metric : Reads payload "metric" (readLiteral metrics) event.metric
  value : Reads payload "value" readTemperature event.value
  unit : Reads payload "unit" (readLiteral measurementUnits) event.unit
  quality : ∃ q, payload.get? (ascii "quality") = some q ∧ (∃ members, q = .object members) ∧
    (∀ name ∈ q.members.map Prod.fst, name ∈ qualityFields) ∧
    Reads q "reading" (readLiteral readingQualities) event.quality.reading ∧
    Reads q "clock" (readLiteral clockQualities) event.quality.clock

theorem validateQuality_eq_valid {payload : Value} {quality : TelemetryQuality} :
    validateQuality payload = .valid quality ↔
      (∃ members, payload = .object members) ∧
      (∀ name ∈ payload.members.map Prod.fst, name ∈ qualityFields) ∧
      Reads payload "reading" (readLiteral readingQualities) quality.reading ∧
      Reads payload "clock" (readLiteral clockQualities) quality.clock := by
  simp only [validateQuality, model_eq_valid, Checked.seq_eq_valid, Checked.map_eq_valid,
    field_eq_valid, scalar_eq_valid]
  constructor
  · rintro ⟨hobject, ⟨f, clock, ⟨reading, hreading, rfl⟩, hclock, rfl⟩, hnames⟩
    exact ⟨hobject, hnames, hreading, hclock⟩
  · rintro ⟨hobject, hnames, hreading, hclock⟩
    exact ⟨hobject, ⟨_, _, ⟨_, hreading, rfl⟩, hclock, rfl⟩, hnames⟩

theorem validateEvent_eq_valid {payload : Value} {event : TelemetryEvent} :
    validateEvent payload = .valid event ↔ EventFields payload event := by
  simp only [validateEvent, buildEvent, model_eq_valid, Checked.seq_eq_valid, Checked.map_eq_valid,
    field_eq_valid, scalar_eq_valid]
  constructor
  · rintro ⟨hobject, ⟨_, _, ⟨_, _, ⟨_, _, ⟨_, _, ⟨_, _, ⟨_, _, ⟨_, _, ⟨_, _, ⟨_, _, ⟨_, hdevice,
      rfl⟩, hboot, rfl⟩, hsequence, rfl⟩, hmeasured, rfl⟩, huptime, rfl⟩, hreceived, rfl⟩, hmetric,
      rfl⟩, hvalue, rfl⟩, hunit, rfl⟩, ⟨q, hq, hquality⟩, rfl⟩, hnames⟩
    exact ⟨hobject, hnames, hdevice, hboot, hsequence, hmeasured, huptime, hreceived, hmetric,
      hvalue, hunit, q, hq, validateQuality_eq_valid.mp hquality⟩
  · rintro ⟨hobject, hnames, hdevice, hboot, hsequence, hmeasured, huptime, hreceived, hmetric,
      hvalue, hunit, q, hq, hquality⟩
    exact ⟨hobject, ⟨_, _, ⟨_, _, ⟨_, _, ⟨_, _, ⟨_, _, ⟨_, _, ⟨_, _, ⟨_, _, ⟨_, _, ⟨_, hdevice,
      rfl⟩, hboot, rfl⟩, hsequence, rfl⟩, hmeasured, rfl⟩, huptime, rfl⟩, hreceived, rfl⟩, hmetric,
      rfl⟩, hvalue, rfl⟩, hunit, rfl⟩, ⟨q, hq, validateQuality_eq_valid.mpr hquality⟩, rfl⟩, hnames⟩

/-! ## Items -/

/-- The error is that a field has none of the values it may have. -/
def ValidationDetail.literalErrorOf (name : Bytes) (error : ValidationDetail) : Bool :=
  error.loc.head? == some name && error.code == .literalError

/-- The reason for a rejection: anything structural, else the metric, else the unit. -/
def itemReason (errors : List ValidationDetail) : ItemReason :=
  if errors.all fun e => e.literalErrorOf (ascii "metric") || e.literalErrorOf (ascii "unit") then
    if errors.any fun e => e.loc.head? == some (ascii "metric") then .invalidMetric
    else .invalidUnit
  else .malformedValue

/-- `_identity`: a part of the identity, if it is valid by itself. -/
def readIdentity {α : Type} (payload : Value) (name : String) (read : Value → Except ErrorCode α) :
    Option α :=
  (payload.get? (ascii name)).bind fun v => (read v).toOption

/-- A field whose errors would all be structural is valid unless the reason is. -/
theorem readIdentity_isSome {α : Type} {payload : Value} {name : String}
    {read : Value → Except ErrorCode α} (hname : ascii name ≠ ascii "metric" ∧ ascii name ≠ ascii "unit")
    (hsub : ∀ e ∈ (field payload (ascii name) (scalar read)).errors,
      e ∈ (buildEvent payload).errors)
    (hreason : itemReason (buildEvent payload).errors ≠ .malformedValue) :
    (readIdentity payload name read).isSome = true := by
  -- The reason is another one, so every error is a literal error of metric or unit.
  have hall : (buildEvent payload).errors.all (fun e =>
      e.literalErrorOf (ascii "metric") || e.literalErrorOf (ascii "unit")) = true := by
    by_contra h
    exact hreason (by rw [itemReason, if_neg h])
  have hnone : (field payload (ascii name) (scalar read)).errors = [] := by
    refine List.eq_nil_iff_forall_not_mem.mpr fun e he => ?_
    have hliteral := List.all_eq_true.mp hall e (hsub e he)
    simp only [ValidationDetail.literalErrorOf, field_errors he, Bool.or_eq_true, Bool.and_eq_true,
      beq_iff_eq, Option.some.injEq] at hliteral
    rcases hliteral with h | h
    · exact hname.1 h.1
    · exact hname.2 h.1
  obtain ⟨a, ha⟩ := Checked.exists_of_errors_eq_nil hnone
  obtain ⟨v, hv, hread⟩ := field_eq_valid.mp ha
  simp [readIdentity, hv, scalar_eq_valid.mp hread, Except.toOption]

theorem itemReason_append {es fs : List ValidationDetail}
    (h : itemReason (es ++ fs) ≠ .malformedValue) : itemReason es ≠ .malformedValue := by
  unfold itemReason at h ⊢
  rw [List.all_append] at h
  split at h
  · next hall =>
    rw [if_pos (Bool.and_eq_true _ _ ▸ hall).1]
    split <;> simp
  · simp at h

/-- Only a malformed item lacks a part of its identity. -/
theorem identity_complete (payload : Value)
    (h : some (itemReason (validateEvent payload).errors) ≠ some .malformedValue) :
    (readIdentity payload "device_id" readIdentifier).isSome = true ∧
      (readIdentity payload "boot_id" readIdentifier).isSome = true ∧
      (readIdentity payload "sequence_number" readCounter).isSome = true := by
  have hreason : itemReason (buildEvent payload).errors ≠ .malformedValue := by
    cases payload with
    | object members =>
      have hboth : itemReason ((buildEvent (.object members)).errors ++
          forbidden eventFields (.object members)) ≠ .malformedValue := by
        simpa [validateEvent, model] using h
      exact itemReason_append hboth
    | _ => exact absurd rfl h
  -- The errors of the three fields are among those of the event.
  have hsub {e : ValidationDetail} (he :
      e ∈ (field payload (ascii "device_id") (scalar readIdentifier)).errors ∨
      e ∈ (field payload (ascii "boot_id") (scalar readIdentifier)).errors ∨
      e ∈ (field payload (ascii "sequence_number") (scalar readCounter)).errors) :
      e ∈ (buildEvent payload).errors := by
    simp only [buildEvent, Checked.errors_seq, Checked.errors_map, List.mem_append]
    rcases he with he | he | he <;> simp only [he, true_or, or_true]
  exact ⟨readIdentity_isSome (by decide) (fun e he => hsub (.inl he)) hreason,
    readIdentity_isSome (by decide) (fun e he => hsub (.inr (.inl he))) hreason,
    readIdentity_isSome (by decide) (fun e he => hsub (.inr (.inr he))) hreason⟩

/-- The rejection of an item that is not valid. -/
def rejection (payload : Value) : TelemetryResponseItem where
  deviceId := readIdentity payload "device_id" readIdentifier
  bootId := readIdentity payload "boot_id" readIdentifier
  sequenceNumber := readIdentity payload "sequence_number" readCounter
  outcome := .rejected
  reason := some (itemReason (validateEvent payload).errors)
  reason_iff := by simp
  complete := identity_complete payload

def validateTelemetryItem (payload : Value) : BatchItem :=
  match validateEvent payload with
  | .valid event => .event event
  | .invalid _ _ => .response (rejection payload)

theorem validateTelemetryItem_rejected {payload : Value} {result : TelemetryResponseItem}
    (h : validateTelemetryItem payload = .response result) : result.outcome = .rejected := by
  unfold validateTelemetryItem at h
  split at h
  · simp at h
  · obtain rfl := BatchItem.response.inj h
    rfl

/-! ## Batches -/

inductive BatchReason where
  | unsupportedSchemaVersion
  | batchTooLarge
  | malformedBatch
deriving DecidableEq

/-- `TelemetryBatchError`. -/
structure TelemetryBatchError where
  reason : BatchReason
  message : String
  details : List ValidationDetail

/-- The integers that `Literal` can look up. -/
def FitsInt64 (i : Int) : Prop := -2 ^ 63 ≤ i ∧ i < 2 ^ 63

instance (i : Int) : Decidable (FitsInt64 i) := inferInstanceAs (Decidable (_ ∧ _))

/-- `require_integer_version`, then `Literal[1]`. -/
def readSchemaVersion : Value → Except ErrorCode SchemaVersion
  | .number n =>
    if n.isIntegral then
      if FitsInt64 n.intValue then
        if n.intValue = 1 then .ok .v1 else .error .literalError
      else .error .intParsingSize
    else .error .valueError
  | _ => .error .valueError

/-- The items of a batch, not looked into. -/
structure RawEvents where
  items : List Value
  nonempty : items ≠ []
  size : items.length ≤ maxBatchSize

def readEvents : Value → Except ErrorCode RawEvents
  | .array items =>
    if hempty : items = [] then .error .tooShort
    else if hsize : items.length ≤ maxBatchSize then .ok ⟨items, hempty, hsize⟩
    else .error .tooLong
  | _ => .error .listType

def envelopeFields : List Bytes := [ascii "schema_version", ascii "events"]

/-- `_BatchEnvelope`. -/
def validateEnvelope : Value → Validated (SchemaVersion × RawEvents) :=
  model envelopeFields fun payload =>
    Prod.mk <$> field payload (ascii "schema_version") (scalar readSchemaVersion)
      <*> field payload (ascii "events") (scalar readEvents)

/-- An error that does not make the envelope malformed. -/
def isUnstructural (error : ValidationDetail) : Bool :=
  (error.loc == [ascii "schema_version"] && error.code == .literalError) ||
    (error.loc == [ascii "events"] && error.code == .tooLong)

/-- The answer to an envelope with these errors. -/
def envelopeError (details : List ValidationDetail) : TelemetryBatchError :=
  if details.all isUnstructural then
    if details.any fun e => e.loc == [ascii "schema_version"] then
      ⟨.unsupportedSchemaVersion, "Only schema_version 1 is supported.", details⟩
    else ⟨.batchTooLarge, "A batch may contain at most 500 events.", details⟩
  else
    ⟨.malformedBatch,
      "Expected schema_version and an events array containing 1 to 500 items.", details⟩

/-- The items validated one by one, in order. -/
def validatedBatch (schemaVersion : SchemaVersion) (events : RawEvents) :
    ValidatedTelemetryBatch where
  schemaVersion := schemaVersion
  items := events.items.map validateTelemetryItem
  nonempty := fun h => events.nonempty (List.map_eq_nil_iff.mp h)
  size := by simpa using events.size
  rejections := by
    intro result hresult
    obtain ⟨payload, -, hpayload⟩ := List.mem_map.mp hresult
    exact validateTelemetryItem_rejected hpayload

def parseTelemetryBatch (python : Interpreter) (body : Bytes) :
    Except TelemetryBatchError ValidatedTelemetryBatch :=
  match loads python body with
  | none =>
    .error ⟨.malformedBatch, "Body must be UTF-8 JSON with unique object members.", []⟩
  | some payload =>
    match validateEnvelope payload with
    | .invalid details _ => .error (envelopeError details)
    -- the envelope is valid, and each item is judged by itself
    | .valid (schemaVersion, events) => .ok (validatedBatch schemaVersion events)

/-- A body that decodes to a version and items is validated item by item. -/
theorem parseTelemetryBatch_eq_ok {python : Interpreter} {body : Bytes}
    {batch : ValidatedTelemetryBatch} (h : parseTelemetryBatch python body = .ok batch) :
    ∃ payload events, loads python body = some payload ∧
      payload.get? (ascii "events") = some (.array events) ∧
      batch.items = events.map validateTelemetryItem := by
  unfold parseTelemetryBatch at h
  split at h
  · simp at h
  · next payload hloads =>
    split at h
    · simp at h
    · next schemaVersion events henvelope =>
      simp only [validateEnvelope, model_eq_valid, Checked.seq_eq_valid, Checked.map_eq_valid,
        field_eq_valid, scalar_eq_valid] at henvelope
      obtain ⟨-, ⟨_, _, ⟨_, -, rfl⟩, ⟨v, hv, hread⟩, hpair⟩, -⟩ := henvelope
      obtain ⟨-, rfl⟩ := Prod.mk.inj hpair
      obtain rfl := Except.ok.inj h
      -- only an array of at most the batch size is let through
      unfold readEvents at hread
      split at hread
      · next items =>
        split at hread
        · simp at hread
        · split at hread
          · obtain rfl := Except.ok.inj hread
            exact ⟨payload, items, hloads, hv, rfl⟩
          · simp at hread
      · simp at hread

end EquipmentMonitoring.Backend
