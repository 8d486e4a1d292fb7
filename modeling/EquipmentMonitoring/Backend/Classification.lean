import EquipmentMonitoring.Backend.Validation

/-!
# What Becomes of an Item, and of a Batch

The reason for a rejection is computed from the places and codes of all validation errors. Here it
is stated over the value itself: which of its violations there are decides the reason, and nothing
about the order of checks or the number of errors does.

## Key Results

- `literalErrors_iff`: no error is structural exactly when the rest of the contract holds
- `items_classified`: the event or the rejection of any value
- `parse_outcome`: which batches pass, and the reason for each that does not
- `envelope_precedence_iff`: when that is the documented reason
-/

namespace EquipmentMonitoring.Backend

open EquipmentMonitoring.Json

/-! ## Violations -/

/-- The field holds the only text it may hold. -/
def Supported (payload : Value) (name text : String) : Prop :=
  payload.get? (ascii name) = some (.string (ascii text))

/-- The field is there and holds anything else. -/
def Unsupported (payload : Value) (name text : String) : Prop :=
  ∃ v, payload.get? (ascii name) = some v ∧ v ≠ .string (ascii text)

/-- The value is no string with a lone surrogate, which no text is compared with. -/
def Comparable (v : Value) : Prop := ∀ text, v = .string text → Utf8.valid text = true

/-- The field is there and holds something else that could be compared with the text. -/
def Unlisted (payload : Value) (name text : String) : Prop :=
  ∃ v, payload.get? (ascii name) = some v ∧ v ≠ .string (ascii text) ∧ Comparable v

/-- The event contract without what it says of metric and unit. -/
structure SoundApart (payload : Value) : Prop where
  object : ∃ members, payload = .object members
  names : ∀ name ∈ payload.members.map Prod.fst, name ∈ eventFields
  deviceId : ∃ id, Reads payload "device_id" readIdentifier id
  bootId : ∃ id, Reads payload "boot_id" readIdentifier id
  sequenceNumber : ∃ c, Reads payload "sequence_number" readCounter c
  measuredAt : ∃ t, Reads payload "measured_at" (readNullable readTimestamp) t
  deviceUptimeMs : ∃ c, Reads payload "device_uptime_ms" readCounter c
  gatewayReceivedAt : ∃ t, Reads payload "gateway_received_at" readTimestamp t
  value : ∃ d, Reads payload "value" readTemperature d
  quality : ∃ q quality, payload.get? (ascii "quality") = some q ∧
    validateQuality q = .valid quality

/-! ## Literals -/

theorem readLiteral_single {α : Type} {text : Bytes} {a b : α} {v : Value}
    (htext : Utf8.valid text = true) :
    readLiteral [(text, a)] v = .ok b ↔ v = .string text ∧ a = b := by
  cases v with
  | string t =>
    by_cases h : text = t
    · subst h
      simp [readLiteral, htext]
    · have hne : (text == t) = false := by simpa using h
      cases hvalid : Utf8.valid t with
      | false => simp [readLiteral, hvalid, Ne.symm h]
      | true => simp [readLiteral, hvalid, hne, Ne.symm h]
  | _ => simp [readLiteral]

/-- Of the values that are not read, those that can be compared are wrong literals. -/
theorem readLiteral_error {α : Type} {options : List (Bytes × α)} {v : Value} {code : ErrorCode}
    (h : readLiteral options v = .error code) : code = .literalError ↔ Comparable v := by
  cases v with
  | string t =>
    simp only [readLiteral] at h
    split at h
    · next hvalid =>
      obtain rfl := Except.error.inj h
      simp [Comparable, hvalid]
    · next hvalid =>
      split at h
      · simp at h
      · obtain rfl := Except.error.inj h
        simp [Comparable, hvalid]
  | _ =>
    obtain rfl := Except.error.inj h
    simp [Comparable]

theorem readLiteral_comparable {α : Type} {options : List (Bytes × α)} {v : Value} {a : α}
    (h : readLiteral options v = .ok a) : Comparable v := by
  rintro text rfl
  cases hvalid : Utf8.valid text with
  | true => rfl
  | false => simp [readLiteral, hvalid] at h

theorem reads_metric {payload : Value} {metric : Metric} :
    Reads payload "metric" (readLiteral metrics) metric ↔
      Supported payload "metric" "temperature" := by
  have htext : Utf8.valid (ascii "temperature") = true := by decide
  cases metric
  simp [Reads, metrics, readLiteral_single htext, Supported]

theorem reads_unit {payload : Value} {unit : MeasurementUnit} :
    Reads payload "unit" (readLiteral measurementUnits) unit ↔
      Supported payload "unit" "celsius" := by
  have htext : Utf8.valid (ascii "celsius") = true := by decide
  cases unit
  simp [Reads, measurementUnits, readLiteral_single htext, Supported]

theorem comparable_iff {payload : Value} {name text : String}
    (htext : Utf8.valid (ascii text) = true) :
    (∃ v, payload.get? (ascii name) = some v ∧ Comparable v) ↔
      Supported payload name text ∨ Unlisted payload name text := by
  constructor
  · rintro ⟨v, hv, hcomparable⟩
    by_cases h : v = .string (ascii text)
    · exact .inl (by rw [Supported, hv, h])
    · exact .inr ⟨v, hv, h, hcomparable⟩
  · rintro (h | ⟨v, hv, -, hcomparable⟩)
    · refine ⟨_, h, ?_⟩
      rintro t ht
      rwa [← Value.string.inj ht]
    · exact ⟨v, hv, hcomparable⟩

theorem not_supported {payload : Value} {name text : String}
    (h : Unlisted payload name text) : ¬ Supported payload name text := by
  obtain ⟨v, hv, hne, -⟩ := h
  intro hsupported
  rw [Supported, hv] at hsupported
  exact hne (Option.some.inj hsupported)

/-- The value satisfies the contract when all its parts do. -/
theorem exists_event_iff {payload : Value} :
    (∃ event, EventFields payload event) ↔ SoundApart payload ∧
      Supported payload "metric" "temperature" ∧ Supported payload "unit" "celsius" := by
  constructor
  · rintro ⟨event, h⟩
    obtain ⟨q, hq, hquality⟩ := h.quality
    exact ⟨⟨h.object, h.names, ⟨_, h.deviceId⟩, ⟨_, h.bootId⟩, ⟨_, h.sequenceNumber⟩,
      ⟨_, h.measuredAt⟩, ⟨_, h.deviceUptimeMs⟩, ⟨_, h.gatewayReceivedAt⟩, ⟨_, h.value⟩,
      q, _, hq, validateQuality_eq_valid.mpr hquality⟩, reads_metric.mp h.metric,
      reads_unit.mp h.unit⟩
  · rintro ⟨⟨hobject, hnames, ⟨device, hdevice⟩, ⟨boot, hboot⟩, ⟨n, hn⟩, ⟨t, ht⟩, ⟨up, hup⟩,
      ⟨r, hr⟩, ⟨d, hd⟩, q, quality, hq, hquality⟩, hmetric, hunit⟩
    exact ⟨⟨device, boot, n, t, up, r, .temperature, d, .celsius, quality⟩,
      ⟨hobject, hnames, hdevice, hboot, hn, ht, hup, hr, reads_metric.mpr hmetric, hd,
        reads_unit.mpr hunit, q, hq, validateQuality_eq_valid.mp hquality⟩⟩

/-! ## Structural Errors -/

/-- The error says that the metric or the unit is not supported. -/
def literalError (error : ValidationDetail) : Bool :=
  error.literalErrorOf (ascii "metric") || error.literalErrorOf (ascii "unit")

theorem literalError_iff {error : ValidationDetail} : literalError error = true ↔
    (error.loc.head? = some (ascii "metric") ∨ error.loc.head? = some (ascii "unit")) ∧
      error.code = .literalError := by
  simp only [literalError, ValidationDetail.literalErrorOf, Bool.or_eq_true, Bool.and_eq_true,
    beq_iff_eq]
  exact or_and_right.symm

/-- Errors in any other field are structural. -/
theorem all_field {α : Type} {payload : Value} {name : Bytes} {read : Value → Validated α}
    (hname : name ≠ ascii "metric" ∧ name ≠ ascii "unit") :
    (∀ e ∈ (field payload name read).errors, literalError e = true) ↔
      ∃ v a, payload.get? name = some v ∧ read v = .valid a := by
  constructor
  · intro h
    have hnil : (field payload name read).errors = [] := by
      refine List.eq_nil_iff_forall_not_mem.mpr fun e he => ?_
      have hhead := (literalError_iff.mp (h e he)).1
      rw [field_errors he, Option.some.injEq, Option.some.injEq] at hhead
      rcases hhead with hmetric | hunit
      · exact hname.1 hmetric
      · exact hname.2 hunit
    obtain ⟨a, ha⟩ := Checked.exists_of_errors_eq_nil hnil
    obtain ⟨v, hv, hread⟩ := field_eq_valid.mp ha
    exact ⟨v, a, hv, hread⟩
  · rintro ⟨v, a, hv, hread⟩
    rw [field_eq_valid.mpr ⟨v, hv, hread⟩]
    simp

/-- In metric and unit, only their absence and a value that cannot be compared are. -/
theorem all_literal {α : Type} {payload : Value} {name : String} {options : List (Bytes × α)}
    (hname : ascii name = ascii "metric" ∨ ascii name = ascii "unit") :
    (∀ e ∈ (field payload (ascii name) (scalar (readLiteral options))).errors,
      literalError e = true) ↔ ∃ v, payload.get? (ascii name) = some v ∧ Comparable v := by
  unfold field
  cases hv : payload.get? (ascii name) with
  | none => simp [Checked.fail, Checked.errors, literalError_iff]
  | some v =>
    simp only [Option.some.injEq, exists_eq_left']
    cases hread : readLiteral options v with
    | ok a =>
      have hcomparable := readLiteral_comparable hread
      simp [scalar, hread, Except.mapError, Checked.ofExcept, Checked.errors, Checked.mapErrors,
        hcomparable]
    | error code =>
      -- the one error is at the field, so its code decides
      have hplace : literalError ⟨[ascii name], code⟩ = true ↔ code = .literalError := by
        rw [literalError_iff]
        simpa using fun _ => hname
      rw [← readLiteral_error hread, ← hplace]
      simp [scalar, hread, Except.mapError, Checked.ofExcept, Checked.fail, Checked.errors,
        Checked.mapErrors, ValidationDetail.inside]

/-- A further member is an error that no exemption covers. -/
theorem all_forbidden {p : ValidationDetail → Bool} (hp : ∀ name, p ⟨[name], .extraForbidden⟩ = false)
    {names : List Bytes} {payload : Value} :
    (∀ e ∈ forbidden names payload, p e = true) ↔
      ∀ name ∈ payload.members.map Prod.fst, name ∈ names := by
  constructor
  · intro h name hname
    obtain ⟨m, hm, rfl⟩ := List.mem_map.mp hname
    -- an unknown name has an error of its own, which the predicate excludes
    by_contra hextra
    have hmem : (⟨[m.1], .extraForbidden⟩ : ValidationDetail) ∈ forbidden names payload :=
      List.mem_map.mpr ⟨m, List.mem_filter.mpr ⟨hm, by simpa using hextra⟩, rfl⟩
    have htrue := h _ hmem
    rw [hp] at htrue
    simp at htrue
  · intro h e he
    obtain ⟨m, hm, rfl⟩ := List.mem_map.mp he
    obtain ⟨hmem, hextra⟩ := List.mem_filter.mp hm
    simp [h m.1 (List.mem_map_of_mem hmem)] at hextra

theorem forbidden_eq_nil {names : List Bytes} {payload : Value}
    (h : ∀ name ∈ payload.members.map Prod.fst, name ∈ names) : forbidden names payload = [] := by
  simp only [forbidden, List.map_eq_nil_iff, List.filter_eq_nil_iff]
  intro m hm
  simpa using h m.1 (List.mem_map_of_mem hm)

/-- No error is structural exactly when the rest of the contract holds, and metric and unit can be
compared. -/
theorem literalErrors_iff {payload : Value} :
    (∀ e ∈ (validateEvent payload).errors, literalError e = true) ↔ SoundApart payload ∧
      (Supported payload "metric" "temperature" ∨ Unlisted payload "metric" "temperature") ∧
      (Supported payload "unit" "celsius" ∨ Unlisted payload "unit" "celsius") := by
  rw [← comparable_iff (by decide), ← comparable_iff (by decide)]
  cases payload with
  | object members =>
    -- The errors of the whole are those of the ten fields, then the unknown names.
    have herrors : (validateEvent (.object members)).errors =
        (buildEvent (.object members)).errors ++ forbidden eventFields (.object members) := by
      simp [validateEvent, model]
    rw [herrors]
    simp only [buildEvent, Checked.errors_seq, Checked.errors_map, List.mem_append, or_imp,
      forall_and]
    rw [all_forbidden (fun name => by simp [literalError, ValidationDetail.literalErrorOf]),
      all_field (by decide), all_field (by decide), all_field (by decide),
      all_field (by decide), all_field (by decide), all_field (by decide), all_literal (.inl rfl),
      all_field (by decide), all_literal (.inr rfl), all_field (by decide)]
    simp only [scalar_eq_valid]
    constructor
    · rintro ⟨⟨⟨⟨⟨⟨⟨⟨⟨⟨hdevice, hboot⟩, hn⟩, ht⟩, hup⟩, hr⟩, hmetric⟩, hd⟩, hunit⟩, hq⟩, hnames⟩
      refine ⟨?_, hmetric, hunit⟩
      obtain ⟨_, device, hdevice⟩ := hdevice
      obtain ⟨_, boot, hboot⟩ := hboot
      obtain ⟨_, n, hn⟩ := hn
      obtain ⟨_, t, ht⟩ := ht
      obtain ⟨_, up, hup⟩ := hup
      obtain ⟨_, r, hr⟩ := hr
      obtain ⟨_, d, hd⟩ := hd
      exact ⟨⟨members, rfl⟩, hnames, ⟨device, _, hdevice⟩, ⟨boot, _, hboot⟩, ⟨n, _, hn⟩,
        ⟨t, _, ht⟩, ⟨up, _, hup⟩, ⟨r, _, hr⟩, ⟨d, _, hd⟩, hq⟩
    · rintro ⟨⟨-, hnames, ⟨device, _, hdevice⟩, ⟨boot, _, hboot⟩, ⟨n, _, hn⟩, ⟨t, _, ht⟩,
        ⟨up, _, hup⟩, ⟨r, _, hr⟩, ⟨d, _, hd⟩, hq⟩, hmetric, hunit⟩
      exact ⟨⟨⟨⟨⟨⟨⟨⟨⟨⟨⟨_, _, hdevice⟩, _, _, hboot⟩, _, _, hn⟩, _, _, ht⟩, _, _, hup⟩, _, _, hr⟩,
        hmetric⟩, _, _, hd⟩, hunit⟩, hq⟩, hnames⟩
  | _ =>
    constructor
    · intro h
      have hmodel := h ⟨[], .modelType⟩ (List.mem_singleton.mpr rfl)
      simp [literalError_iff] at hmodel
    · rintro ⟨hsound, -⟩
      obtain ⟨members, hobject⟩ := hsound.object
      simp at hobject

/-! ## Reasons -/

/-- A field that is checked as a scalar has an error exactly when it does not read. -/
theorem exists_error_iff {α : Type} {payload : Value} {name : String}
    {read : Value → Except ErrorCode α} :
    (∃ e, e ∈ (field payload (ascii name) (scalar read)).errors) ↔
      ¬ ∃ a, Reads payload name read a := by
  constructor
  · rintro ⟨e, he⟩ ⟨a, v, hv, hread⟩
    rw [field_eq_valid.mpr ⟨v, hv, scalar_eq_valid.mpr hread⟩] at he
    simp at he
  · intro h
    by_contra hnone
    have hnil : (field payload (ascii name) (scalar read)).errors = [] :=
      List.eq_nil_iff_forall_not_mem.mpr fun e he => hnone ⟨e, he⟩
    obtain ⟨a, ha⟩ := Checked.exists_of_errors_eq_nil hnil
    obtain ⟨v, hv, hread⟩ := field_eq_valid.mp ha
    exact h ⟨a, v, hv, scalar_eq_valid.mp hread⟩

/-- The metric is named in an error exactly when it is not the supported one. -/
theorem any_metric_iff {payload : Value} :
    (∃ e ∈ (buildEvent payload).errors, e.loc.head? = some (ascii "metric")) ↔
      ¬ Supported payload "metric" "temperature" := by
  -- No other field reports an error at this place.
  have hother {α : Type} {name : Bytes} {read : Value → Validated α}
      (hname : name ≠ ascii "metric") :
      ¬ ∃ e ∈ (field payload name read).errors, e.loc.head? = some (ascii "metric") := by
    rintro ⟨e, he, hhead⟩
    rw [field_errors he] at hhead
    exact hname (Option.some.inj hhead)
  have hmetric : (∃ e ∈ (field payload (ascii "metric") (scalar (readLiteral metrics))).errors,
      e.loc.head? = some (ascii "metric")) ↔ ¬ Supported payload "metric" "temperature" := by
    rw [← @reads_metric payload .temperature]
    constructor
    · rintro ⟨e, he, -⟩ hreads
      exact exists_error_iff.mp ⟨e, he⟩ ⟨_, hreads⟩
    · intro h
      have hfails : ¬ ∃ metric, Reads payload "metric" (readLiteral metrics) metric := by
        rintro ⟨⟨⟩, hreads⟩
        exact h hreads
      obtain ⟨e, he⟩ := exists_error_iff.mpr hfails
      exact ⟨e, he, field_errors he⟩
  simp only [buildEvent, Checked.errors_seq, Checked.errors_map, List.mem_append, or_and_right,
    exists_or]
  rw [hmetric]
  simp only [hother (by decide : ascii "device_id" ≠ ascii "metric"),
    hother (by decide : ascii "boot_id" ≠ ascii "metric"),
    hother (by decide : ascii "sequence_number" ≠ ascii "metric"),
    hother (by decide : ascii "measured_at" ≠ ascii "metric"),
    hother (by decide : ascii "device_uptime_ms" ≠ ascii "metric"),
    hother (by decide : ascii "gateway_received_at" ≠ ascii "metric"),
    hother (by decide : ascii "value" ≠ ascii "metric"),
    hother (by decide : ascii "unit" ≠ ascii "metric"),
    hother (by decide : ascii "quality" ≠ ascii "metric"), false_or, or_false]

/-- What decides the reason, when no error is structural. -/
theorem any_metric_of_literal {payload : Value}
    (h : ∀ e ∈ (validateEvent payload).errors, literalError e = true) :
    (∃ e ∈ (validateEvent payload).errors, e.loc.head? = some (ascii "metric")) ↔
      ¬ Supported payload "metric" "temperature" := by
  obtain ⟨⟨⟨members, rfl⟩, hnames, -⟩, -⟩ := literalErrors_iff.mp h
  have herrors : (validateEvent (.object members)).errors =
      (buildEvent (.object members)).errors := by
    simp [validateEvent, model, forbidden_eq_nil hnames]
  rw [herrors, any_metric_iff]

theorem itemReason_eq (errors : List ValidationDetail) :
    (itemReason errors = .invalidMetric ↔ (∀ e ∈ errors, literalError e = true) ∧
      ∃ e ∈ errors, e.loc.head? = some (ascii "metric")) ∧
    (itemReason errors = .invalidUnit ↔ (∀ e ∈ errors, literalError e = true) ∧
      ¬ ∃ e ∈ errors, e.loc.head? = some (ascii "metric")) ∧
    (itemReason errors = .malformedValue ↔ ¬ ∀ e ∈ errors, literalError e = true) := by
  have hall : (errors.all fun e => e.literalErrorOf (ascii "metric") ||
      e.literalErrorOf (ascii "unit")) = true ↔ ∀ e ∈ errors, literalError e = true :=
    List.all_eq_true
  have hany : (errors.any fun e => e.loc.head? == some (ascii "metric")) = true ↔
      ∃ e ∈ errors, e.loc.head? = some (ascii "metric") := by
    simp only [List.any_eq_true, beq_iff_eq]
  rw [← hall, ← hany]
  unfold itemReason
  split
  · next h =>
    split
    · next h' => simp [h, h']
    · next h' => simp [h, h']
  · next h => simp [h]

/-! ## Items -/

/-- `validate_outcome`. -/
def validateOutcome (deviceId bootId : Option Identifier) (sequenceNumber : Option Counter)
    (outcome : Outcome) (reason : Option ItemReason) : Except String Unit :=
  let incomplete := deviceId.isNone || bootId.isNone || sequenceNumber.isNone
  if outcome = .rejected then
    if reason = none then .error "rejected outcomes require a reason"
    else if incomplete = true ∧ reason ≠ some .malformedValue then
      .error "only malformed_value may have an incomplete identity"
    else .ok ()
  else if reason ≠ none then .error "accepted and duplicate outcomes cannot have a reason"
  else if incomplete = true then .error "accepted and duplicate outcomes require an identity"
  else .ok ()

/-- The invariant of a result is what `validate_outcome` checks. -/
theorem validateOutcome_eq_ok (result : TelemetryResponseItem) :
    validateOutcome result.deviceId result.bootId result.sequenceNumber result.outcome
      result.reason = .ok () := by
  obtain ⟨deviceId, bootId, sequenceNumber, outcome, reason, hreason, hcomplete⟩ := result
  -- Only a malformed value may leave parts of the identity out.
  have hpresent (h : reason ≠ some .malformedValue) :
      (deviceId.isNone || bootId.isNone || sequenceNumber.isNone) = false := by
    obtain ⟨hdevice, hboot, hsequence⟩ := hcomplete h
    simp [Option.isNone_eq_false_iff, hdevice, hboot, hsequence]
  unfold validateOutcome
  by_cases houtcome : outcome = .rejected
  · obtain ⟨why, rfl⟩ := Option.isSome_iff_exists.mp (hreason.mpr houtcome)
    by_cases hwhy : why = .malformedValue
    · simp [houtcome, hwhy]
    · have hnone := hpresent (by simpa using hwhy)
      simp [houtcome, hnone]
  · have hnone : reason = none := by
      by_contra h
      exact houtcome (hreason.mp (Option.isSome_iff_ne_none.mpr h))
    have hidentity := hpresent (by simp [hnone])
    simp [houtcome, hnone, hidentity]

/-- What a rejection says of the value it is about. -/
structure Classified (payload : Value) (result : TelemetryResponseItem) : Prop where
  outcome : result.outcome = .rejected
  invalidMetric : result.reason = some .invalidMetric ↔ SoundApart payload ∧
    Unlisted payload "metric" "temperature" ∧
    (Supported payload "unit" "celsius" ∨ Unlisted payload "unit" "celsius")
  invalidUnit : result.reason = some .invalidUnit ↔ SoundApart payload ∧
    Supported payload "metric" "temperature" ∧ Unlisted payload "unit" "celsius"
  malformedValue : result.reason = some .malformedValue ↔
    result.reason ≠ some .invalidMetric ∧ result.reason ≠ some .invalidUnit
  deviceId : ∀ id, result.deviceId = some id ↔
    payload.get? (ascii "device_id") = some (.string id.text)
  bootId : ∀ id, result.bootId = some id ↔
    payload.get? (ascii "boot_id") = some (.string id.text)
  sequenceNumber : ∀ c, result.sequenceNumber = some c ↔
    ∃ n, payload.get? (ascii "sequence_number") = some (.number n) ∧ n.isIntegral = true ∧
      n.intValue = c.value
  constructible : validateOutcome result.deviceId result.bootId result.sequenceNumber
    result.outcome result.reason = .ok ()

theorem readIdentity_eq_some {α : Type} {payload : Value} {name : String}
    {read : Value → Except ErrorCode α} {a : α} :
    readIdentity payload name read = some a ↔ Reads payload name read a := by
  simp only [readIdentity, Reads, Option.bind_eq_some_iff]
  refine exists_congr fun v => and_congr_right fun _ => ?_
  cases read v <;> simp [Except.toOption]

theorem readIdentity_identifier {payload : Value} {name : String} {id : Identifier} :
    readIdentity payload name readIdentifier = some id ↔
      payload.get? (ascii name) = some (.string id.text) := by
  rw [readIdentity_eq_some]
  constructor
  · rintro ⟨v, hv, hread⟩
    rw [hv, readIdentifier_eq_ok hread]
  · exact fun h => ⟨_, h, readIdentifier_text id⟩

theorem readIdentity_counter {payload : Value} {name : String} {c : Counter} :
    readIdentity payload name readCounter = some c ↔
      ∃ n, payload.get? (ascii name) = some (.number n) ∧ n.isIntegral = true ∧
        n.intValue = c.value := by
  rw [readIdentity_eq_some]
  constructor
  · rintro ⟨v, hv, hread⟩
    obtain ⟨n, rfl, hintegral, hvalue⟩ := readCounter_eq_ok hread
    exact ⟨n, hv, hintegral, hvalue⟩
  · rintro ⟨n, hv, hintegral, hvalue⟩
    exact ⟨_, hv, readCounter_of hintegral hvalue⟩

theorem rejection_classified {payload : Value} (hinvalid : ∀ event, ¬ EventFields payload event) :
    Classified payload (rejection payload) := by
  obtain ⟨hmetric, hunit, hmalformed⟩ := itemReason_eq (validateEvent payload).errors
  have hreason : (rejection payload).reason = some (itemReason (validateEvent payload).errors) := rfl
  constructor
  case outcome => rfl
  case invalidMetric =>
    rw [hreason, Option.some.injEq, hmetric]
    constructor
    · rintro ⟨hall, hany⟩
      obtain ⟨hsound, hm, hu⟩ := literalErrors_iff.mp hall
      exact ⟨hsound, hm.resolve_left ((any_metric_of_literal hall).mp hany), hu⟩
    · rintro ⟨hsound, hm, hu⟩
      have hall := literalErrors_iff.mpr ⟨hsound, .inr hm, hu⟩
      exact ⟨hall, (any_metric_of_literal hall).mpr (not_supported hm)⟩
  case invalidUnit =>
    rw [hreason, Option.some.injEq, hunit]
    constructor
    · rintro ⟨hall, hany⟩
      obtain ⟨hsound, -, hu⟩ := literalErrors_iff.mp hall
      have hm : Supported payload "metric" "temperature" := by
        by_contra h
        exact hany ((any_metric_of_literal hall).mpr h)
      refine ⟨hsound, hm, hu.resolve_left fun h => ?_⟩
      -- nothing would be wrong with the value
      obtain ⟨event, hevent⟩ := exists_event_iff.mpr ⟨hsound, hm, h⟩
      exact hinvalid event hevent
    · rintro ⟨hsound, hm, hu⟩
      have hall := literalErrors_iff.mpr ⟨hsound, .inl hm, .inr hu⟩
      exact ⟨hall, fun hany => (any_metric_of_literal hall).mp hany hm⟩
  case malformedValue =>
    rw [hreason, Option.some.injEq, Ne, Ne, Option.some.injEq, Option.some.injEq, hmalformed,
      hmetric, hunit]
    tauto
  case deviceId => exact fun id => readIdentity_identifier
  case bootId => exact fun id => readIdentity_identifier
  case sequenceNumber => exact fun c => readIdentity_counter
  case constructible => exact validateOutcome_eq_ok _

/-- What is no event is rejected. -/
theorem validateTelemetryItem_of_invalid {payload : Value}
    (hinvalid : ∀ event, ¬ EventFields payload event) :
    validateTelemetryItem payload = .response (rejection payload) := by
  unfold validateTelemetryItem
  cases hvalidated : validateEvent payload with
  | valid event => exact absurd (validateEvent_eq_valid.mp hvalidated) (hinvalid event)
  | invalid errors hne => rfl

/-- Every value is either an event of the contract or rejected as its violations demand. -/
theorem items_classified (payload : Value) :
    (∃ event, validateTelemetryItem payload = .event event ∧ EventFields payload event) ∨
      ∃ result, validateTelemetryItem payload = .response result ∧
        (∀ event, ¬ EventFields payload event) ∧ Classified payload result := by
  by_cases hvalid : ∃ event, EventFields payload event
  · obtain ⟨event, hevent⟩ := hvalid
    refine .inl ⟨event, ?_, hevent⟩
    simp only [validateTelemetryItem, validateEvent_eq_valid.mpr hevent]
  · have hinvalid (event : TelemetryEvent) : ¬ EventFields payload event :=
      fun h => hvalid ⟨event, h⟩
    exact .inr ⟨rejection payload, validateTelemetryItem_of_invalid hinvalid, hinvalid,
      rejection_classified hinvalid⟩

/-- An interpreter with the recursion limit it starts with. -/
def defaultInterpreter : Interpreter := ⟨1000, by decide⟩

/-- An event that is sound but for its metric, which is a lone surrogate. -/
def surrogateMetric : Bytes :=
  ascii ("\x7b\"device_id\":\"esp32-1\",\"boot_id\":\"b\",\"sequence_number\":0," ++
    "\"measured_at\":null,\"device_uptime_ms\":0," ++
    "\"gateway_received_at\":\"2026-07-24T08:30:00Z\",\"metric\":\"\\ud800\",\"value\":1," ++
    "\"unit\":\"celsius\",\"quality\":\x7b\"reading\":\"valid\",\"clock\":\"unknown\"\x7d\x7d")

theorem loads_surrogateMetric : (loads defaultInterpreter surrogateMetric).any (fun p =>
    !p.members.isEmpty && (p.members.map Prod.fst).all eventFields.contains &&
    (readIdentity p "device_id" readIdentifier).isSome &&
    (readIdentity p "boot_id" readIdentifier).isSome &&
    (readIdentity p "sequence_number" readCounter).isSome &&
    (readIdentity p "measured_at" (readNullable readTimestamp)).isSome &&
    (readIdentity p "device_uptime_ms" readCounter).isSome &&
    (readIdentity p "gateway_received_at" readTimestamp).isSome &&
    (readIdentity p "value" readTemperature).isSome &&
    (readIdentity p "unit" (readLiteral measurementUnits)).isSome &&
    (p.get? (ascii "quality")).any (fun q => decide ((validateQuality q).errors = [])) &&
    (p.get? (ascii "metric")).any fun v =>
      decide (readLiteral metrics v = .error .stringUnicode)) = true := by
  decide +kernel

/-- Only an object has members. -/
theorem exists_object {payload : Value} (h : (!payload.members.isEmpty) = true) :
    ∃ members, payload = .object members := by
  cases payload with
  | object members => exact ⟨members, rfl⟩
  | _ => simp [Value.members] at h

theorem exists_reads {α : Type} {payload : Value} {name : String}
    {read : Value → Except ErrorCode α} (h : (readIdentity payload name read).isSome = true) :
    ∃ a, Reads payload name read a := by
  obtain ⟨a, ha⟩ := Option.isSome_iff_exists.mp h
  exact ⟨a, readIdentity_eq_some.mp ha⟩

/-- Of an event whose only fault is an unsupported metric, the reason is not the metric. -/
theorem lone_surrogate_malformed : ∃ payload result,
    loads defaultInterpreter surrogateMetric = some payload ∧
    validateTelemetryItem payload = .response result ∧ result.reason = some .malformedValue ∧
    ¬ (result.reason = some .invalidMetric ↔ SoundApart payload ∧
      Unsupported payload "metric" "temperature" ∧
      (Supported payload "unit" "celsius" ∨ Unsupported payload "unit" "celsius")) := by
  obtain ⟨payload, hloads, hchecks⟩ := (Option.any_eq_true _ _).mp loads_surrogateMetric
  simp only [Bool.and_eq_true, Option.any_eq_true, decide_eq_true_eq] at hchecks
  obtain ⟨⟨⟨⟨⟨⟨⟨⟨⟨⟨⟨hmembers, hnames⟩, hdevice⟩, hboot⟩, hn⟩, ht⟩, hup⟩, hr⟩, hd⟩, hunit⟩,
    q, hq, hquality⟩, v, hv, hread⟩ := hchecks
  obtain ⟨quality, hquality⟩ := Checked.exists_of_errors_eq_nil hquality
  have hsound : SoundApart payload :=
    ⟨exists_object hmembers, fun name hname => by simpa using List.all_eq_true.mp hnames name hname,
      exists_reads hdevice, exists_reads hboot, exists_reads hn, exists_reads ht,
      exists_reads hup, exists_reads hr, exists_reads hd, q, quality, hq, hquality⟩
  have hcelsius : Supported payload "unit" "celsius" := by
    obtain ⟨unit, hreads⟩ := exists_reads hunit
    exact reads_unit.mp hreads
  -- The metric is not the supported one, nor one that is compared with it.
  have hmetric : ¬ Comparable v := fun h => by
    have hcode := (readLiteral_error hread).mpr h
    simp at hcode
  have htemperature : v ≠ .string (ascii "temperature") := by
    rintro rfl
    exact hmetric fun text htext => Value.string.inj htext ▸ by decide
  have hunsupported : ¬ Supported payload "metric" "temperature" := fun h =>
    htemperature (Option.some.inj (hv.symm.trans h))
  have hinvalid (event : TelemetryEvent) : ¬ EventFields payload event := fun h =>
    hunsupported (reads_metric.mp h.metric)
  have hclassified := rejection_classified hinvalid
  have hreason : (rejection payload).reason ≠ some .invalidMetric := by
    intro h
    obtain ⟨-, ⟨w, hw, -, hcomparable⟩, -⟩ := hclassified.invalidMetric.mp h
    rw [hv] at hw
    exact hmetric (Option.some.inj hw ▸ hcomparable)
  have hunitReason : (rejection payload).reason ≠ some .invalidUnit := fun h =>
    hunsupported (hclassified.invalidUnit.mp h).2.1
  exact ⟨payload, rejection payload, hloads, validateTelemetryItem_of_invalid hinvalid,
    hclassified.malformedValue.mpr ⟨hreason, hunitReason⟩,
    fun h => hreason (h.mpr ⟨hsound, ⟨v, hv, htemperature⟩, .inl hcelsius⟩)⟩

/-! ## Envelopes -/

/-- `schema_version` is the integer `i`; neither `true` nor `1.0` is an integer. -/
def HasVersion (payload : Value) (i : Int) : Prop :=
  ∃ n, payload.get? (ascii "schema_version") = some (.number n) ∧ n.isIntegral = true ∧
    n.intValue = i

def HasEvents (payload : Value) (items : List Value) : Prop :=
  payload.get? (ascii "events") = some (.array items)

/-- Nothing is wrong but perhaps the number of the version and too many events. -/
structure Enveloped (payload : Value) : Prop where
  object : ∃ members, payload = .object members
  names : ∀ name ∈ payload.members.map Prod.fst, name ∈ envelopeFields
  schemaVersion : ∃ i, HasVersion payload i
  events : ∃ items, HasEvents payload items ∧ items ≠ []

/-- A value names one version at most. -/
theorem HasVersion.unique {payload : Value} {i j : Int} (hi : HasVersion payload i)
    (hj : HasVersion payload j) : i = j := by
  obtain ⟨n, hn, -, rfl⟩ := hi
  obtain ⟨m, hm, -, rfl⟩ := hj
  rw [hn] at hm
  rw [Value.number.inj (Option.some.inj hm)]

/-- The version is an integer, but none that it could be compared with. -/
def OversizedVersion (payload : Value) : Prop := ∃ i, HasVersion payload i ∧ ¬ FitsInt64 i

theorem readSchemaVersion_eq_ok {v : Value} {version : SchemaVersion} :
    readSchemaVersion v = .ok version ↔
      ∃ n, v = .number n ∧ n.isIntegral = true ∧ n.intValue = 1 := by
  cases v with
  | number n =>
    cases version
    by_cases hintegral : n.isIntegral = true
    · by_cases hone : n.intValue = 1
      · have hfits : FitsInt64 1 := by decide
        simp [readSchemaVersion, hintegral, hone, hfits]
      · by_cases hfits : FitsInt64 n.intValue
        · simp [readSchemaVersion, hintegral, hone, hfits]
        · simp [readSchemaVersion, hintegral, hone, hfits]
    · simp [readSchemaVersion, hintegral]
  | _ => simp [readSchemaVersion]

theorem readSchemaVersion_literalError {v : Value} :
    readSchemaVersion v = .error .literalError ↔
      ∃ n, v = .number n ∧ n.isIntegral = true ∧ FitsInt64 n.intValue ∧ n.intValue ≠ 1 := by
  cases v with
  | number n =>
    by_cases hintegral : n.isIntegral = true
    · by_cases hfits : FitsInt64 n.intValue
      · by_cases hone : n.intValue = 1
        · have hone' : FitsInt64 1 := by decide
          simp [readSchemaVersion, hintegral, hone, hone']
        · simp [readSchemaVersion, hintegral, hone, hfits]
      · simp [readSchemaVersion, hintegral, hfits]
    · simp [readSchemaVersion, hintegral]
  | _ => simp [readSchemaVersion]

theorem readSchemaVersion_intParsingSize {v : Value}
    (h : readSchemaVersion v = .error .intParsingSize) :
    ∃ n, v = .number n ∧ n.isIntegral = true ∧ ¬ FitsInt64 n.intValue := by
  cases v with
  | number n =>
    simp only [readSchemaVersion] at h
    split at h
    · next hintegral =>
      split at h
      · split at h
        · simp at h
        · simp at h
      · next hover => exact ⟨n, rfl, hintegral, hover⟩
    · simp at h
  | _ => simp [readSchemaVersion] at h

theorem readEvents_eq_ok {v : Value} {events : RawEvents} :
    readEvents v = .ok events ↔ v = .array events.items := by
  cases v with
  | array items =>
    constructor
    · intro h
      simp only [readEvents] at h
      split at h
      · simp at h
      · split at h
        · rw [← Except.ok.inj h]
        · simp at h
    · intro h
      obtain rfl := Value.array.inj h
      simp only [readEvents, dif_neg events.nonempty, dif_pos events.size]
  | _ => simp [readEvents]

theorem readEvents_tooLong {v : Value} :
    readEvents v = .error .tooLong ↔
      ∃ items, v = .array items ∧ maxBatchSize < items.length := by
  cases v with
  | array items =>
    by_cases hempty : items = []
    · simp [readEvents, hempty]
    · by_cases hsize : items.length ≤ maxBatchSize
      · simp [readEvents, hempty, hsize]
      · simp [readEvents, hempty, hsize, Nat.lt_of_not_le hsize]
  | _ => simp [readEvents]

/-- A field of the envelope reports nothing structural exactly when it reads, or fails by `code`. -/
theorem all_unstructural {α : Type} {payload : Value} {name : Bytes}
    {read : Value → Except ErrorCode α} {code : ErrorCode}
    (hcode : ∀ c, isUnstructural ⟨[name], c⟩ = true ↔ c = code) (hmissing : ErrorCode.missing ≠ code) :
    (∀ e ∈ (field payload name (scalar read)).errors, isUnstructural e = true) ↔
      ∃ v, payload.get? name = some v ∧ ((∃ a, read v = .ok a) ∨ read v = .error code) := by
  unfold field
  cases hv : payload.get? name with
  | none => simp [Checked.fail, Checked.errors, hcode, hmissing]
  | some v =>
    cases hread : read v with
    | ok a =>
      simp [scalar, hread, Except.mapError, Checked.ofExcept, Checked.errors, Checked.mapErrors]
    | error c =>
      simp [scalar, hread, Except.mapError, Checked.ofExcept, Checked.fail, Checked.errors,
        Checked.mapErrors, ValidationDetail.inside, hcode]

theorem unstructural_version (c : ErrorCode) :
    isUnstructural ⟨[ascii "schema_version"], c⟩ = true ↔ c = .literalError := by
  have hne : ascii "schema_version" ≠ ascii "events" := by decide
  simp [isUnstructural, hne]

theorem unstructural_events (c : ErrorCode) :
    isUnstructural ⟨[ascii "events"], c⟩ = true ↔ c = .tooLong := by
  have hne : ascii "events" ≠ ascii "schema_version" := by decide
  simp [isUnstructural, hne]

theorem envelope_errors (members : List (Bytes × Value)) :
    (validateEnvelope (.object members)).errors =
      (field (.object members) (ascii "schema_version") (scalar readSchemaVersion)).errors ++
      (field (.object members) (ascii "events") (scalar readEvents)).errors ++
      forbidden envelopeFields (.object members) := by
  simp [validateEnvelope, model]

/-- No error is structural exactly when the value is an envelope whose version is compared. -/
theorem unstructural_iff {payload : Value} :
    (∀ e ∈ (validateEnvelope payload).errors, isUnstructural e = true) ↔
      Enveloped payload ∧ ¬ OversizedVersion payload := by
  cases payload with
  | object members =>
    rw [envelope_errors]
    simp only [List.mem_append, or_imp, forall_and]
    rw [all_forbidden (fun name => by simp [isUnstructural]),
      all_unstructural unstructural_version (by decide),
      all_unstructural unstructural_events (by decide)]
    constructor
    · rintro ⟨⟨⟨v, hv, hversion⟩, ⟨w, hw, hevents⟩⟩, hnames⟩
      -- What is read, or is a wrong literal, fits.
      have hfits : ∃ n, v = .number n ∧ n.isIntegral = true ∧ FitsInt64 n.intValue := by
        rcases hversion with ⟨version, hread⟩ | hread
        · obtain ⟨n, rfl, hintegral, hone⟩ := readSchemaVersion_eq_ok.mp hread
          exact ⟨n, rfl, hintegral, by rw [hone]; decide⟩
        · obtain ⟨n, rfl, hintegral, hfits, -⟩ := readSchemaVersion_literalError.mp hread
          exact ⟨n, rfl, hintegral, hfits⟩
      obtain ⟨n, rfl, hintegral, hfits⟩ := hfits
      have hn : HasVersion (.object members) n.intValue := ⟨n, hv, hintegral, rfl⟩
      refine ⟨⟨⟨members, rfl⟩, hnames, ⟨_, hn⟩, ?_⟩, ?_⟩
      · rcases hevents with ⟨events, hread⟩ | hread
        · obtain rfl := readEvents_eq_ok.mp hread
          exact ⟨events.items, hw, events.nonempty⟩
        · obtain ⟨items, rfl, hlong⟩ := readEvents_tooLong.mp hread
          exact ⟨items, hw, List.ne_nil_of_length_pos (Nat.zero_lt_of_lt hlong)⟩
      · rintro ⟨i, hi, hover⟩
        exact hover (hi.unique hn ▸ hfits)
    · rintro ⟨⟨-, hnames, ⟨i, n, hn, hintegral, hi⟩, items, hitems, hne⟩, hover⟩
      have hfits : FitsInt64 n.intValue := by
        by_contra h
        exact hover ⟨_, ⟨n, hn, hintegral, rfl⟩, h⟩
      refine ⟨⟨⟨_, hn, ?_⟩, ⟨_, hitems, ?_⟩⟩, hnames⟩
      · by_cases hone : n.intValue = 1
        · exact .inl ⟨.v1, readSchemaVersion_eq_ok.mpr ⟨n, rfl, hintegral, hone⟩⟩
        · exact .inr (readSchemaVersion_literalError.mpr ⟨n, rfl, hintegral, hfits, hone⟩)
      · by_cases hsize : items.length ≤ maxBatchSize
        · exact .inl ⟨⟨items, hne, hsize⟩, readEvents_eq_ok.mpr rfl⟩
        · exact .inr (readEvents_tooLong.mpr ⟨items, rfl, Nat.lt_of_not_le hsize⟩)
  | _ =>
    constructor
    · intro h
      -- a payload that is no object has the one structural error
      have hmodel := h ⟨[], .modelType⟩ (List.mem_singleton.mpr rfl)
      simp [isUnstructural] at hmodel
    · rintro ⟨⟨⟨members, hobject⟩, -⟩, -⟩
      simp at hobject

/-- An object with exactly the version 1 and an array of 1 to 500 items of any kind. -/
structure BatchOf (payload : Value) (items : List Value) : Prop where
  object : ∃ members, payload = .object members
  names : ∀ name ∈ payload.members.map Prod.fst, name ∈ envelopeFields
  schemaVersion : HasVersion payload 1
  events : HasEvents payload items
  size : 1 ≤ items.length ∧ items.length ≤ 500

theorem validateEnvelope_eq_valid {payload : Value} {version : SchemaVersion} {events : RawEvents} :
    validateEnvelope payload = .valid (version, events) ↔ BatchOf payload events.items := by
  simp only [validateEnvelope, model_eq_valid, Checked.seq_eq_valid, Checked.map_eq_valid,
    field_eq_valid, scalar_eq_valid, readEvents_eq_ok, readSchemaVersion_eq_ok]
  constructor
  · rintro ⟨hobject, ⟨_, raw, ⟨_, ⟨_, hv, n, rfl, hintegral, hone⟩, rfl⟩, ⟨_, hw, rfl⟩, hpair⟩,
      hnames⟩
    obtain ⟨-, rfl⟩ := Prod.mk.inj hpair
    exact ⟨hobject, hnames, ⟨n, hv, hintegral, hone⟩, hw, List.length_pos_iff.mpr raw.nonempty,
      raw.size⟩
  · rintro ⟨hobject, hnames, ⟨n, hv, hintegral, hone⟩, hw, -⟩
    exact ⟨hobject, ⟨_, events, ⟨version, ⟨_, hv, n, rfl, hintegral, hone⟩, rfl⟩, ⟨_, hw, rfl⟩, rfl⟩,
      hnames⟩

/-- A payload describes at most one batch: its events are the value read. -/
theorem BatchOf.unique {payload : Value} {items items' : List Value} (h : BatchOf payload items)
    (h' : BatchOf payload items') : items = items' := by
  have hevents := h.events
  rw [HasEvents, h'.events] at hevents
  exact (Value.array.inj (Option.some.inj hevents)).symm

theorem BatchOf.errors_eq_nil {payload : Value} {items : List Value} (h : BatchOf payload items) :
    (validateEnvelope payload).errors = [] := by
  have hnonempty : items ≠ [] := List.ne_nil_of_length_pos h.size.1
  have hvalid : validateEnvelope payload = .valid (.v1, ⟨items, hnonempty, h.size.2⟩) :=
    validateEnvelope_eq_valid.mpr h
  rw [hvalid, Checked.errors_valid]

/-- The place of an error in a scalar field is the field's name. -/
theorem scalar_errors {α : Type} {payload : Value} {name : Bytes}
    {read : Value → Except ErrorCode α} {e : ValidationDetail}
    (he : e ∈ (field payload name (scalar read)).errors) : e.loc = [name] := by
  unfold field at he
  cases hv : payload.get? name with
  | none =>
    simp only [hv, Checked.fail, Checked.errors, List.mem_singleton] at he
    rw [he]
  | some v =>
    cases hread : read v with
    | ok a =>
      simp [hv, scalar, hread, Except.mapError, Checked.ofExcept, Checked.errors,
        Checked.mapErrors] at he
    | error code =>
      simp only [hv, scalar, hread, Except.mapError, Checked.ofExcept, Checked.fail,
        Checked.errors, Checked.mapErrors, List.map_cons, List.map_nil, List.mem_singleton] at he
      rw [he]
      rfl

/-- In an envelope, an error at the version says that it is not 1. -/
theorem any_version_iff {payload : Value} (h : Enveloped payload) :
    (∃ e ∈ (validateEnvelope payload).errors, e.loc = [ascii "schema_version"]) ↔
      ¬ HasVersion payload 1 := by
  obtain ⟨members, rfl⟩ := h.object
  -- Neither the unknown names nor the events report at the version's place.
  have hevents : ¬ ∃ e ∈ (field (.object members) (ascii "events") (scalar readEvents)).errors,
      e.loc = [ascii "schema_version"] := by
    rintro ⟨e, he, hloc⟩
    have hhead := field_errors he
    rw [hloc] at hhead
    exact absurd (Option.some.inj hhead) (by decide)
  have hversion : (∃ a, Reads (.object members) "schema_version" readSchemaVersion a) ↔
      HasVersion (.object members) 1 := by
    constructor
    · rintro ⟨version, v, hv, hread⟩
      obtain ⟨n, rfl, hintegral, hone⟩ := readSchemaVersion_eq_ok.mp hread
      exact ⟨n, hv, hintegral, hone⟩
    · rintro ⟨n, hn, hintegral, hone⟩
      exact ⟨.v1, _, hn, readSchemaVersion_eq_ok.mpr ⟨n, rfl, hintegral, hone⟩⟩
  rw [envelope_errors, forbidden_eq_nil h.names, List.append_nil]
  simp only [List.mem_append, or_and_right, exists_or, hevents, or_false]
  rw [← hversion, ← exists_error_iff]
  constructor
  · rintro ⟨e, he, -⟩
    exact ⟨e, he⟩
  · rintro ⟨e, he⟩
    exact ⟨e, he, scalar_errors he⟩

/-- The answer to an envelope that is refused. -/
theorem envelopeError_reason {payload : Value} (hinvalid : ∀ items, ¬ BatchOf payload items) :
    ((envelopeError (validateEnvelope payload).errors).reason = .malformedBatch ↔
      ¬ (Enveloped payload ∧ ¬ OversizedVersion payload)) ∧
    ((envelopeError (validateEnvelope payload).errors).reason = .unsupportedSchemaVersion ↔
      (Enveloped payload ∧ ¬ OversizedVersion payload) ∧ ∃ i, HasVersion payload i ∧ i ≠ 1) ∧
    ((envelopeError (validateEnvelope payload).errors).reason = .batchTooLarge ↔
      (Enveloped payload ∧ ¬ OversizedVersion payload) ∧ HasVersion payload 1 ∧
        ∃ items, HasEvents payload items ∧ 500 < items.length) := by
  have hall : (validateEnvelope payload).errors.all isUnstructural = true ↔
      Enveloped payload ∧ ¬ OversizedVersion payload := by
    rw [List.all_eq_true, unstructural_iff]
  unfold envelopeError
  by_cases hsound : Enveloped payload ∧ ¬ OversizedVersion payload
  · have henveloped := hsound.1
    have hany : ((validateEnvelope payload).errors.any fun e =>
        e.loc == [ascii "schema_version"]) = true ↔ ¬ HasVersion payload 1 := by
      simp only [List.any_eq_true, beq_iff_eq, any_version_iff henveloped]
    obtain ⟨i, hi⟩ := henveloped.schemaVersion
    obtain ⟨items, hitems, hne⟩ := henveloped.events
    rw [if_pos (hall.mpr hsound)]
    -- the version is looked at first: a batch too large is reported only for a supported version
    by_cases hone : HasVersion payload 1
    · have hlong : 500 < items.length := by
        by_contra hshort
        exact hinvalid items ⟨henveloped.object, henveloped.names, hone, hitems,
          List.length_pos_iff.mpr hne, Nat.le_of_not_lt hshort⟩
      rw [if_neg (by rw [hany]; simpa using hone)]
      have hversion : ¬ ∃ i, HasVersion payload i ∧ i ≠ 1 := by
        rintro ⟨j, hj, hne⟩
        exact hne (hj.unique hone)
      have htoo : ∃ items, HasEvents payload items ∧ 500 < items.length := ⟨items, hitems, hlong⟩
      simp [hsound, hone, hversion, htoo]
    · rw [if_pos (hany.mpr hone)]
      have hversion : ∃ i, HasVersion payload i ∧ i ≠ 1 := ⟨i, hi, fun h => hone (h ▸ hi)⟩
      simp [hsound, hone, hversion]
  · rw [if_neg (by rw [hall]; exact hsound)]
    simp [hsound]

/-! ## The Order of Validation -/

/-- The items validated one by one, each noted as its validation begins. -/
def validateNoting (items : List Value) : StateM (List Value) (List BatchItem) :=
  items.mapM fun payload => do
    modify (· ++ [payload])
    return validateTelemetryItem payload

/-- `parse_telemetry_batch`, noting the items it validates. -/
def parseNoting (python : Interpreter) (body : Bytes) :
    StateM (List Value) (Except TelemetryBatchError (List BatchItem)) :=
  match loads python body with
  | none =>
    return .error ⟨.malformedBatch, "Body must be UTF-8 JSON with unique object members.", []⟩
  | some payload =>
    match validateEnvelope payload with
    | .invalid details _ => return .error (envelopeError details)
    | .valid (_, events) => do
      let items ← validateNoting events.items
      return .ok items

theorem validateNoting_run (items noted : List Value) :
    (validateNoting items).run noted = (items.map validateTelemetryItem, noted ++ items) := by
  induction items generalizing noted with
  | nil =>
    rw [List.append_nil]
    rfl
  | cons payload rest ih =>
    -- The first item is noted before any later one is validated.
    have hstep : (validateNoting (payload :: rest)).run noted =
        (validateTelemetryItem payload :: ((validateNoting rest).run (noted ++ [payload])).1,
          ((validateNoting rest).run (noted ++ [payload])).2) := by
      simp only [validateNoting, List.mapM_cons]
      rfl
    rw [hstep, ih, List.append_assoc]
    rfl

/-- Once a body has loaded, its envelope decides the batch it makes or the reason against it; and
items are validated in order, or not at all. -/
theorem parse_outcome {python : Interpreter} {body : Bytes} {payload : Value}
    (hloads : loads python body = some payload) :
    (∀ batch, parseTelemetryBatch python body = .ok batch ↔
      ∃ items, BatchOf payload items ∧ batch.items = items.map validateTelemetryItem) ∧
    (∀ items, BatchOf payload items → ∀ noted,
      (parseNoting python body).run noted =
        (.ok (items.map validateTelemetryItem), noted ++ items)) ∧
    ∀ error, parseTelemetryBatch python body = .error error →
      (error.reason = .malformedBatch ↔ ¬ (Enveloped payload ∧ ¬ OversizedVersion payload)) ∧
      (error.reason = .unsupportedSchemaVersion ↔
        (Enveloped payload ∧ ¬ OversizedVersion payload) ∧ ∃ i, HasVersion payload i ∧ i ≠ 1) ∧
      (error.reason = .batchTooLarge ↔
        (Enveloped payload ∧ ¬ OversizedVersion payload) ∧ HasVersion payload 1 ∧
          ∃ items, HasEvents payload items ∧ 500 < items.length) ∧
      ∀ noted, (parseNoting python body).run noted = (.error error, noted) := by
  unfold parseTelemetryBatch parseNoting
  simp only [hloads]
  cases henvelope : validateEnvelope payload with
  | valid p =>
    obtain ⟨version, events⟩ := p
    have hbatch := validateEnvelope_eq_valid.mp henvelope
    refine ⟨fun batch => ?_, fun items hitems noted => ?_, by simp⟩
    · constructor
      · intro h
        obtain rfl := Except.ok.inj h
        exact ⟨events.items, hbatch, rfl⟩
      · rintro ⟨items, hitems, hall⟩
        obtain ⟨schemaVersion, batchItems, hne, hsize, hrejections⟩ := batch
        obtain rfl := hitems.unique hbatch
        obtain rfl : batchItems = events.items.map validateTelemetryItem := hall
        cases schemaVersion
        cases version
        rfl
    · obtain rfl := hitems.unique hbatch
      have hrun : (validateNoting events.items >>= fun items => pure (Except.ok items) :
          StateM (List Value) (Except TelemetryBatchError (List BatchItem))).run noted =
          (.ok ((validateNoting events.items).run noted).1,
            ((validateNoting events.items).run noted).2) := rfl
      rw [hrun, validateNoting_run]
  | invalid details hne =>
    -- A payload with errors describes no batch, and no item has been validated.
    have hinvalid (items : List Value) : ¬ BatchOf payload items := by
      intro h
      have hnil := h.errors_eq_nil
      rw [henvelope] at hnil
      exact hne hnil
    have hreason := envelopeError_reason hinvalid
    rw [henvelope] at hreason
    refine ⟨fun batch => ?_, fun items hitems => absurd hitems (hinvalid items), ?_⟩
    · constructor
      · intro h
        simp at h
      · rintro ⟨items, hitems, -⟩
        exact absurd hitems (hinvalid items)
    · intro error h
      obtain rfl := Except.error.inj h
      exact ⟨hreason.1, hreason.2.1, hreason.2.2, fun noted => rfl⟩

/-- What is documented of a body that has loaded: which batch it makes, and in which order the
reasons against it count. -/
structure Precedence (python : Interpreter) (body : Bytes) (payload : Value) : Prop where
  batch : ∀ batch, parseTelemetryBatch python body = .ok batch ↔
    ∃ items, BatchOf payload items ∧ batch.items = items.map validateTelemetryItem
  validated : ∀ items, BatchOf payload items → ∀ noted,
    (parseNoting python body).run noted = (.ok (items.map validateTelemetryItem), noted ++ items)
  malformedBatch : ∀ error, parseTelemetryBatch python body = .error error →
    (error.reason = .malformedBatch ↔ ¬ Enveloped payload)
  unsupportedSchemaVersion : ∀ error, parseTelemetryBatch python body = .error error →
    (error.reason = .unsupportedSchemaVersion ↔
      Enveloped payload ∧ ∃ i, HasVersion payload i ∧ i ≠ 1)
  batchTooLarge : ∀ error, parseTelemetryBatch python body = .error error →
    (error.reason = .batchTooLarge ↔ Enveloped payload ∧ HasVersion payload 1 ∧
      ∃ items, HasEvents payload items ∧ 500 < items.length)
  notValidated : ∀ error, parseTelemetryBatch python body = .error error → ∀ noted,
    (parseNoting python body).run noted = (.error error, noted)

/-- A version that is not compared is a structural error of an envelope. -/
theorem malformed_of_oversized {python : Interpreter} {body : Bytes} {payload : Value}
    (hloads : loads python body = some payload) (hversion : OversizedVersion payload) :
    ∃ error, parseTelemetryBatch python body = .error error ∧ error.reason = .malformedBatch := by
  obtain ⟨hbatches, -, herrors⟩ := parse_outcome hloads
  cases hparse : parseTelemetryBatch python body with
  | ok batch =>
    obtain ⟨items, hitems, -⟩ := (hbatches batch).mp hparse
    obtain ⟨i, hi, hover⟩ := hversion
    rw [hi.unique hitems.schemaVersion] at hover
    exact absurd (by decide) hover
  | error error =>
    exact ⟨error, rfl, (herrors error hparse).1.mpr fun h => h.2 hversion⟩

/-- The answer is the documented one unless all that is wrong with the envelope, but perhaps too
many events, is that the version is no `i64`. -/
theorem envelope_precedence_iff (python : Interpreter) (body : Bytes) (payload : Value)
    (hloads : loads python body = some payload) :
    Precedence python body payload ↔ ¬ (Enveloped payload ∧ OversizedVersion payload) := by
  constructor
  · rintro h ⟨henveloped, hversion⟩
    obtain ⟨error, herror, hreason⟩ := malformed_of_oversized hloads hversion
    exact (h.malformedBatch error herror).mp hreason henveloped
  · intro h
    obtain ⟨hbatches, hnoting, herrors⟩ := parse_outcome hloads
    -- Of an envelope, the version is compared.
    have hsound : (Enveloped payload ∧ ¬ OversizedVersion payload) ↔ Enveloped payload :=
      and_iff_left_of_imp fun henveloped hversion => h ⟨henveloped, hversion⟩
    rw [hsound] at herrors
    exact ⟨hbatches, hnoting, fun error he => (herrors error he).1,
      fun error he => (herrors error he).2.1, fun error he => (herrors error he).2.2.1,
      fun error he => (herrors error he).2.2.2⟩

/-- A version beyond `i64`, alone. -/
def oversizedVersion : Bytes :=
  ascii "\x7b\"schema_version\":9223372036854775808,\"events\":[1]\x7d"

theorem loads_oversizedVersion : (loads defaultInterpreter oversizedVersion).any (fun p =>
    !p.members.isEmpty && (p.members.map Prod.fst).all envelopeFields.contains &&
    (p.get? (ascii "schema_version")).any (fun v =>
      decide (readSchemaVersion v = .error .intParsingSize)) &&
    (readIdentity p "events" readEvents).isSome) = true := by
  decide +kernel

/-- An integer version other than 1 is the only fault, and the batch is called malformed. -/
theorem oversized_version_malformed : ∃ payload error,
    loads defaultInterpreter oversizedVersion = some payload ∧
    parseTelemetryBatch defaultInterpreter oversizedVersion = .error error ∧
    error.reason = .malformedBatch ∧
    Enveloped payload ∧ (∃ i, HasVersion payload i ∧ i ≠ 1) ∧
    ¬ Precedence defaultInterpreter oversizedVersion payload := by
  obtain ⟨payload, hloads, hchecks⟩ := (Option.any_eq_true _ _).mp loads_oversizedVersion
  simp only [Bool.and_eq_true, Option.any_eq_true, decide_eq_true_eq] at hchecks
  obtain ⟨⟨⟨hmembers, hnames⟩, v, hv, hread⟩, hevents⟩ := hchecks
  obtain ⟨n, rfl, hintegral, hover⟩ := readSchemaVersion_intParsingSize hread
  obtain ⟨events, w, hw, hevents⟩ := exists_reads hevents
  obtain rfl := readEvents_eq_ok.mp hevents
  have hversion : HasVersion payload n.intValue := ⟨n, hv, hintegral, rfl⟩
  have henveloped : Enveloped payload :=
    ⟨exists_object hmembers, fun name hname => by simpa using List.all_eq_true.mp hnames name hname,
      ⟨_, hversion⟩, events.items, hw, events.nonempty⟩
  obtain ⟨error, herror, hreason⟩ := malformed_of_oversized hloads ⟨_, hversion, hover⟩
  exact ⟨payload, error, hloads, herror, hreason, henveloped,
    ⟨_, hversion, fun hone => hover (by rw [hone]; decide)⟩,
    fun h => (h.malformedBatch error herror).mp hreason henveloped⟩

/-- Items of the wrong kind do not matter to the envelope. -/
theorem envelope_precedence_sample : ∃ payload items,
    loads defaultInterpreter (ascii "\x7b\"schema_version\":1,\"events\":[null,7]\x7d") =
      some payload ∧ BatchOf payload items ∧
    (parseNoting defaultInterpreter
      (ascii "\x7b\"schema_version\":1,\"events\":[null,7]\x7d")).run [] =
        (.ok (items.map validateTelemetryItem), items) := by
  have hload : (loads defaultInterpreter
      (ascii "\x7b\"schema_version\":1,\"events\":[null,7]\x7d")).any (fun p =>
        (readIdentity p "schema_version" readSchemaVersion).isSome) = true := by
    decide +kernel
  obtain ⟨payload, hloads, hread⟩ := (Option.any_eq_true _ _).mp hload
  obtain ⟨version, hversion⟩ := Option.isSome_iff_exists.mp hread
  obtain ⟨v, hv, hread⟩ := readIdentity_eq_some.mp hversion
  obtain ⟨n, rfl, hintegral, hone⟩ := readSchemaVersion_eq_ok.mp hread
  have hprecedence := (envelope_precedence_iff _ _ payload hloads).mpr (by
    rintro ⟨-, i, hi, hover⟩
    rw [hi.unique ⟨n, hv, hintegral, hone⟩] at hover
    exact hover (by decide))
  cases hparse : parseTelemetryBatch defaultInterpreter
      (ascii "\x7b\"schema_version\":1,\"events\":[null,7]\x7d") with
  | ok batch =>
    obtain ⟨items, hitems, -⟩ := (hprecedence.batch batch).mp hparse
    exact ⟨payload, items, hloads, hitems, hprecedence.validated items hitems []⟩
  | error error =>
    have hok : (parseTelemetryBatch defaultInterpreter
        (ascii "\x7b\"schema_version\":1,\"events\":[null,7]\x7d")).isOk = true := by
      decide +kernel
    rw [hparse] at hok
    simp [Except.isOk, Except.toBool] at hok

end EquipmentMonitoring.Backend
