import EquipmentMonitoring.Gateway.Nlohmann

/-!
# Telemetry Events (`telemetry/event.cpp`)

`parse` turns one MQTT message into an `Event` or throws. Every access that has a precondition in
the source (`at`, `get_ref`, `substr`, `stoi`, indexing) throws its own exception here when the
precondition fails, so that "only `invalid_argument` is thrown" is a statement about the model.

## Layers

- `parseStrict`: duplicate keys and depth, checked by the parser callback
- `identifier`, `counter`, `validMeasuredAt`, `topicDeviceId`: field checks
- `parse`: the ten fields in the source's order
-/

namespace EquipmentMonitoring.Telemetry

open EquipmentMonitoring.Json EquipmentMonitoring.Nlohmann

/-! ## Exceptions -/

/-- What a call can throw. -/
inductive Thrown where
  | invalidArgument (reason : String)
  | outOfRange
  | typeError
deriving DecidableEq

def require (condition : Bool) (reason : String) : Except Thrown Unit :=
  if condition then .ok () else .error (.invalidArgument reason)

@[simp] theorem require_eq_ok {c : Bool} {reason : String} {u : Unit} :
    require c reason = .ok u ↔ c = true := by
  cases c <;> simp [require]

/-- `value.at(key)`. -/
def at_ (v : Value) (key : Bytes) : Except Thrown Value :=
  match v with
  | .object _ =>
    match v.get? key with
    | some x => .ok x
    | none => .error .outOfRange
  | _ => .error .typeError

/-- `value.get_ref<const std::string &>()`. -/
def getText : Value → Except Thrown Bytes
  | .string text => .ok text
  | _ => .error .typeError

/-! ## Strict Parsing -/

/-- What the callback of `parse_strict` throws. -/
def strictFault : KeyFault → Thrown
  | .tooDeep => .invalidArgument "json_too_deep"
  | .duplicate => .invalidArgument "duplicate_json_key"
  | .outOfRange => .outOfRange

/-- The callback may throw before the parser meets a syntax error. -/
def parseStrict [Nlohmann.Library] (payload : Bytes) : Except Thrown Value := do
  let parsed := Nlohmann.read payload
  let _ ← (trackAll 4 [] parsed.reports).mapError strictFault
  match parsed.result with
  | some doc => return doc.value.value
  | none => throw (.invalidArgument "invalid_json")

/-! ## Field Checks -/

def exactKeys (object : Value) (expected : List Bytes) (reason : String) : Except Thrown Unit := do
  require (isObject object && size object == expected.length) reason
  expected.forM fun key => require (contains object key) reason

def identifier (value : Value) (reason : String) : Except Thrown Bytes := do
  require (match value with | .string _ => true | _ => false) reason
  let text ← getText value
  require (!text.isEmpty && decide (text.length ≤ 128) && !text.contains 0) reason
  return text

def counter (value : Value) (reason : String) : Except Thrown Int := do
  match value with
  | .number n =>
    match numberKind n with
    | .unsigned k => do
      require (decide (k ≤ 2 ^ 63 - 1)) reason
      return k
    -- a negative literal is no unsigned number to nlohmann
    | .integer i => do
      require (decide (0 ≤ i)) reason
      return i
    | .float => throw (.invalidArgument reason)
  | _ => throw (.invalidArgument reason)

/-! ## Timestamps -/

/-- `text.substr(position, count)`. -/
def substr (text : Bytes) (position count : Nat) : Except Thrown Bytes :=
  if position ≤ text.length then .ok ((text.drop position).take count) else .error .outOfRange

/-- `std::stoi` on a text without leading whitespace or sign. -/
def stoi (text : Bytes) : Except Thrown Nat :=
  let digits := text.takeWhile isDigit
  if digits.isEmpty then .error (.invalidArgument "stoi")
  else if digitsValue digits < 2 ^ 31 then .ok (digitsValue digits)
  else .error .outOfRange

/-- Drop exactly `n` digits. -/
def dropDigits : Nat → Bytes → Option Bytes
  | 0, s => some s
  | n + 1, b :: s => if isDigit b then dropDigits n s else none
  | _ + 1, [] => none

/-- Drop groups of digits, each of the given length and behind its separator. -/
def dropGroups : List (UInt8 × Nat) → Bytes → Option Bytes
  | [], s => some s
  | (separator, n) :: groups, s =>
    ((expectByte separator s).bind (dropDigits n)).bind (dropGroups groups)

/-- `Z` or a numeric offset, up to the end. -/
def matchesZone : Bytes → Bool
  | [0x5A] => true
  | b :: s => (b == 0x2B || b == 0x2D) &&
    decide (((dropDigits 2 s).bind (dropGroups [(0x3A, 2)])) = some [])
  | [] => false

/-- The date and time of the pattern `matches_pattern` uses, up to the seconds. -/
def dateTimeGroups : List (UInt8 × Nat) := [(0x2D, 2), (0x2D, 2), (0x54, 2), (0x3A, 2), (0x3A, 2)]

/-- The regular expression of `valid_measured_at`. -/
def matchesPattern (text : Bytes) : Bool :=
  match (dropDigits 4 text).bind (dropGroups dateTimeGroups) with
  | none => false
  | some (0x2E :: s) => (s.takeWhile isDigit != []) && matchesZone (s.dropWhile isDigit)
  | some s => matchesZone s

/-- `text.find_last_of("+-")`. -/
def findLastSign (text : Bytes) : Option Nat :=
  (text.reverse.findIdx? fun b => b == 0x2B || b == 0x2D).map (text.length - 1 - ·)

def daysInMonth : List Nat := [31, 28, 31, 30, 31, 30, 31, 31, 30, 31, 30, 31]

def isLeap (year : Nat) : Bool :=
  year % 4 == 0 && (year % 100 != 0 || year % 400 == 0)

def validMeasuredAt (value : Value) : Except Thrown Bool :=
  match value with
  | .null => return true
  | .string text => do
    if !matchesPattern text then return false
    let year ← stoi (← substr text 0 4)
    let month ← stoi (← substr text 5 2)
    let day ← stoi (← substr text 8 2)
    let hour ← stoi (← substr text 11 2)
    let minute ← stoi (← substr text 14 2)
    let second ← stoi (← substr text 17 2)
    -- the pattern admits any digits, so each field is bounded here
    if year == 0 || decide (month < 1) || decide (month > 12) || decide (hour > 23) ||
        decide (minute > 59) || decide (second > 59) then return false
    let length ← match daysInMonth[month - 1]? with
      | some days => pure days
      -- past the table: the month was checked above
      | none => throw .outOfRange
    let days := length + if month == 2 && isLeap year then 1 else 0
    if decide (day < 1) || decide (day > days) then return false
    match findLastSign text with
    | some offset =>
      -- a sign before the end of the seconds belongs to the date
      if 19 ≤ offset then do
        let hours ← stoi (← substr text (offset + 1) 2)
        if hours ≤ 23 then do
          let minutes ← stoi (← substr text (offset + 4) 2)
          return decide (minutes ≤ 59)
        else return false
      else return true
    | none => return true
  | _ => return false

/-! ## Topics -/

/-- `text.find_first_of("/+#") == npos`. -/
def isOneLevel (device : Bytes) : Bool :=
  device.all fun b => b != 0x2F && b != 0x2B && b != 0x23

def topicDeviceId (topic : Bytes) : Except Thrown Bytes := do
  let before := ascii "equipment/"
  let after := ascii "/telemetry"
  require (decide (topic.length > before.length + after.length) &&
    topic.take before.length == before && topic.drop (topic.length - after.length) == after)
    "invalid_topic"
  -- between the two fixed parts stands one topic level
  let device := (topic.drop before.length).take (topic.length - before.length - after.length)
  require (decide (device.length ≤ 128) && isOneLevel device) "invalid_topic"
  return device

/-! ## Events -/

structure Event where
  deviceId : Bytes
  bootId : Bytes
  sequenceNumber : Int
  mqttPayload : Bytes
  gatewayReceivedAt : Bytes
deriving DecidableEq

def maxPayloadBytes : Nat := 16384

def eventFields : List Bytes :=
  [ascii "schema_version", ascii "device_id", ascii "boot_id", ascii "sequence_number",
    ascii "measured_at", ascii "device_uptime_ms", ascii "metric", ascii "value", ascii "unit",
    ascii "quality"]

def qualityFields : List Bytes := [ascii "reading", ascii "clock"]

def clockQualities : List Bytes :=
  [ascii "synchronised", ascii "unsynchronised", ascii "estimated", ascii "unknown"]

/-- `is_number_integer() && value == 1`. -/
def isOne : Value → Bool
  | .number n => (numberKind n).toInt? == some 1
  | _ => false

/-- `is_number() && std::isfinite(get<double>())`. -/
def isFiniteNumber : Value → Bool
  | .number n => finiteDouble n
  | _ => false

def parse [Nlohmann.Library] (topic payload gatewayReceivedAt : Bytes) : Except Thrown Event := do
  require (decide (payload.length ≤ maxPayloadBytes)) "payload_too_large"
  let deviceFromTopic ← topicDeviceId topic
  -- key tracking rejects duplicates while parsing
  let data ← parseStrict payload
  require (!isObject data || !contains data (ascii "gateway_received_at"))
    "gateway_received_at_forbidden"
  -- every name is there and no other, before any value is looked at
  exactKeys data eventFields "invalid_event_fields"
  require (isOne (← at_ data (ascii "schema_version"))) "unsupported_schema_version"
  let deviceId ← identifier (← at_ data (ascii "device_id")) "invalid_device_id"
  require (deviceId == deviceFromTopic) "topic_device_mismatch"
  let bootId ← identifier (← at_ data (ascii "boot_id")) "invalid_boot_id"
  let sequenceNumber ← counter (← at_ data (ascii "sequence_number")) "invalid_sequence_number"
  let _ ← counter (← at_ data (ascii "device_uptime_ms")) "invalid_device_uptime_ms"
  require (← validMeasuredAt (← at_ data (ascii "measured_at"))) "invalid_measured_at"
  require (isText (← at_ data (ascii "metric")) (ascii "temperature")) "invalid_metric"
  require (isText (← at_ data (ascii "unit")) (ascii "celsius")) "invalid_unit"
  require (isFiniteNumber (← at_ data (ascii "value"))) "invalid_value"
  let quality ← at_ data (ascii "quality")
  exactKeys quality qualityFields "invalid_quality"
  require (isText (← at_ quality (ascii "reading")) (ascii "valid")) "invalid_quality"
  let clock ← at_ quality (ascii "clock")
  require (clockQualities.any (isText clock)) "invalid_quality"
  return ⟨deviceId, bootId, sequenceNumber, payload, gatewayReceivedAt⟩

end EquipmentMonitoring.Telemetry
