import EquipmentMonitoring.Backend.Router
import EquipmentMonitoring.Foundations.Generators
import EquipmentMonitoring.Foundations.Rfc3339
import Mathlib.Data.Set.Function
import Mathlib.Logic.Function.Iterate

/-!
# Simulated Events (`simulator/events.py`)

A virtual device samples at virtual intervals and reboots at a fixed period. Its events come from a
generator, which the batches share: a batch takes the next events from where the last one stopped.

## Layers

- `TemperatureProfile`, `Scenario`: what is simulated, `postInit` the checks of the constructors
- `bootId`: the ids of the boots, the first of which the caller may choose
- `generator`, `generateEvents`, `batches`: the events, one after another and in batches
-/

namespace EquipmentMonitoring.Simulator

open EquipmentMonitoring.Backend (uuidText)

def simulatorVersion : Bytes := ascii "1"

def maxCounter : Nat := 2 ^ 63 - 1

def maxEvents : Nat := 1000000

/-! ## Checks -/

/-- `identifier`; lengths count characters. -/
def identifier (value : Bytes) (name : String) : Except String Unit :=
  if (1 ≤ Utf8.length value ∧ Utf8.length value ≤ 128) ∧ 0 ∉ value then .ok ()
  else .error s!"{name} must contain 1 to 128 characters without NUL"

def integer (value : Int) (name : String) (minimum maximum : Int) : Except String Unit :=
  if minimum ≤ value ∧ value ≤ maximum then .ok ()
  else .error s!"{name} must be an integer from {minimum} to {maximum}"

theorem integer_eq_ok {value : Int} {name : String} {minimum maximum : Int} {u : Unit} :
    integer value name minimum maximum = .ok u ↔ minimum ≤ value ∧ value ≤ maximum := by
  unfold integer
  split
  · next h => exact iff_of_true rfl h
  · next h => simp [h]

/-! ## Profiles -/

/-- Python's floats, as the profiles compute with them, and `random.Random`. -/
structure Numerics (F R : Type) where
  ofInt : Int → F
  add : F → F → F
  sub : F → F → F
  mul : F → F → F
  div : F → F → F
  sin : F → F
  tau : F
  isFinite : F → Bool
  isNegative : F → Bool
  /-- `round(value, 6)`. -/
  round6 : F → F
  seeded : Int → R
  random : R → F × R

inductive ProfileKind where
  | constant
  | ramp
  | sine
deriving DecidableEq

structure TemperatureProfile (F : Type) where
  kind : ProfileKind
  temperature : F
  step : F
  amplitude : F
  period : Int
  noise : F

section Profile

variable {F R : Type} (numerics : Numerics F R)

/-- `__post_init__`. -/
def TemperatureProfile.postInit (self : TemperatureProfile F) : Except String Unit := do
  [("temperature", self.temperature), ("step", self.step), ("amplitude", self.amplitude),
    ("noise", self.noise)].forM fun p =>
      if numerics.isFinite p.2 then .ok () else .error s!"{p.1} must be finite"
  if numerics.isNegative self.amplitude ∨ numerics.isNegative self.noise then
    .error "amplitude and noise must be nonnegative"
  else integer self.period "period" 1 maxEvents

def TemperatureProfile.baseline (self : TemperatureProfile F) (index : Int) : F :=
  match self.kind with
  | .ramp => numerics.add self.temperature (numerics.mul self.step (numerics.ofInt index))
  | .sine =>
    numerics.add self.temperature (numerics.mul self.amplitude (numerics.sin (numerics.div
      (numerics.mul numerics.tau (numerics.ofInt (index % self.period)))
      (numerics.ofInt self.period))))
  | .constant => self.temperature

end Profile

/-! ## Scenarios -/

/-- A `datetime`, in microseconds from the beginning of year 1. -/
structure DateTime where
  wall : Int
  utcoffset : Option Int

structure Scenario (F : Type) where
  deviceId : Bytes
  runId : Bytes
  bootId : Option Bytes
  seed : Int
  count : Int
  intervalMs : Int
  startTime : DateTime
  rebootEvery : Int
  profile : TemperatureProfile F

section Scenario

variable {F R : Type} (numerics : Numerics F R)

/-- The temperatures at the ends of a profile, noise included, are finite. -/
def Scenario.finiteBounds (self : Scenario F) : Bool :=
  let profile := self.profile
  let bounds :=
    if profile.kind = .sine then
      [numerics.sub profile.temperature profile.amplitude,
        numerics.add profile.temperature profile.amplitude]
    -- a ramp is monotone: its two ends bound it
    else [profile.baseline numerics 0, profile.baseline numerics (self.count - 1)]
  bounds.all fun value => [-1, 1].all fun sign =>
    numerics.isFinite (numerics.add value (numerics.mul (numerics.ofInt sign) profile.noise))

/-- `__post_init__`: the scenario with its start in UTC. -/
def Scenario.postInit (self : Scenario F) : Except String (Scenario F) := do
  identifier self.deviceId "device_id"
  identifier self.runId "run_id"
  self.bootId.toList.forM fun value => identifier value "boot_id"
  integer self.count "count" 1 maxEvents
  integer self.intervalMs "interval_ms" 1 maxCounter
  integer self.rebootEvery "reboot_every" 0 maxEvents
  match self.startTime.utcoffset with
  | none => .error "start_time must include a timezone"
  | some offset =>
    let start := self.startTime.wall - offset
    -- the last event bounds every timestamp and counter of the run
    let durationMs := (self.count - 1) * self.intervalMs
    if (0 ≤ durationMs ∧ durationMs ≤ maxCounter) ∧ Rfc3339.representable start = true ∧
        Rfc3339.representable (start + durationMs * 1000) = true then
      if self.finiteBounds numerics then .ok { self with startTime := ⟨start, some 0⟩ }
      else .error "profile generates nonfinite temperatures"
    else .error "scenario timestamps/counters exceed supported range"

end Scenario

/-! ## Boot Ids -/

/-- The code points of a text. -/
def codePoints : Bytes → List Nat
  | [] => []
  | b :: rest =>
    -- the lead byte says how many continuation bytes follow
    if b < 0x80 then b.toNat :: codePoints rest
    else
      match rest with
      | [] => []
      | c :: rest =>
        if b < 0xE0 then (b.toNat % 0x20 * 0x40 + c.toNat % 0x40) :: codePoints rest
        else
          match rest with
          | [] => []
          | d :: rest =>
            let cp := (b.toNat % 0x10 * 0x40 + c.toNat % 0x40) * 0x40 + d.toNat % 0x40
            if b < 0xF0 then cp :: codePoints rest
            else
              match rest with
              | [] => []
              | e :: rest =>
                (((b.toNat % 0x08 * 0x40 + c.toNat % 0x40) * 0x40 + d.toNat % 0x40) * 0x40 +
                  e.toNat % 0x40) :: codePoints rest

def unicodeEscape (unit : Nat) : Bytes := ascii "\\u" ++ numeral 16 4 unit

/-- One character in a string of `json.dumps`, which keeps to ASCII. -/
def escapeAscii (cp : Nat) : Bytes :=
  if cp = 0x22 then ascii "\\\""
  else if cp = 0x5C then ascii "\\\\"
  else if cp = 0x08 then ascii "\\b"
  else if cp = 0x0C then ascii "\\f"
  else if cp = 0x0A then ascii "\\n"
  else if cp = 0x0D then ascii "\\r"
  else if cp = 0x09 then ascii "\\t"
  else if 0x20 ≤ cp ∧ cp ≤ 0x7E then [cp.toUInt8]
  else if cp < 0x10000 then unicodeEscape cp
  else
    -- a surrogate pair above the basic plane
    unicodeEscape (0xD800 + (cp - 0x10000) / 0x400) ++ unicodeEscape (0xDC00 + (cp - 0x10000) % 0x400)

def dumps (text : Bytes) : Bytes := 0x22 :: ((codePoints text).flatMap escapeAscii ++ [0x22])

section Boots

variable {F : Type} (scenario : Scenario F)

/-- The name a boot id is derived from: a JSON array. -/
def bootName (number : Nat) : Bytes :=
  ascii "[" ++ dumps simulatorVersion ++ ascii ", " ++ dumps scenario.runId ++ ascii ", " ++
    dumps scenario.deviceId ++ ascii ", " ++
    (match scenario.bootId with
      | none => ascii "null"
      | some initial => dumps initial) ++
    ascii ", " ++ decimal number ++ ascii "]"

-- `uuid5(NAMESPACE_URL, name)`
variable (uuid5 : Bytes → Fin (2 ^ 128))

/-- `str(uuid5(NAMESPACE_URL, name))`. -/
def derivedId (number : Nat) : Bytes := uuidText (uuid5 (bootName scenario number)).val

/-- A derived id that is the caller's own is told apart from it. -/
def otherBootId (number : Nat) : Bytes :=
  let derived := derivedId scenario uuid5 number
  if some derived = scenario.bootId then ascii "reboot-" ++ derived else derived

def bootId (number : Nat) : Bytes :=
  match scenario.bootId with
  | none => otherBootId scenario uuid5 number
  | some initial => if number = 0 then initial else otherBootId scenario uuid5 number

end Boots

/-! ## Events -/

/-- One event; its times are the instants whose texts it carries. -/
structure SimulatedEvent (F : Type) where
  deviceId : Bytes
  bootId : Bytes
  sequenceNumber : Int
  measuredAt : Int
  deviceUptimeMs : Int
  gatewayReceivedAt : Int
  metric : Bytes
  value : F
  unit : Bytes
  reading : Bytes
  clock : Bytes

/-- What tells the events of one run apart. -/
def SimulatedEvent.identity {F : Type} (event : SimulatedEvent F) : Bytes × Int :=
  (event.bootId, event.sequenceNumber)

/-- The variables of `generate_events` before the turn for `index`. -/
structure RunState (R : Type) where
  index : Nat
  bootNumber : Nat
  bootStart : Nat
  currentBoot : Bytes
  rng : R

section Generate

variable {F R : Type} (numerics : Numerics F R) (uuid5 : Bytes → Fin (2 ^ 128))
  (scenario : Scenario F)

/-- A reboot, if it is time for one. -/
def RunState.reboot (self : RunState R) : RunState R :=
  if self.index ≠ 0 ∧ scenario.rebootEvery ≠ 0 ∧ (self.index : Int) % scenario.rebootEvery = 0 then
    { self with
      bootNumber := self.bootNumber + 1
      currentBoot := bootId scenario uuid5 (self.bootNumber + 1)
      bootStart := self.index }
  else self

/-- The event of a turn, for its draw. -/
def RunState.event (self : RunState R) (draw : F) : SimulatedEvent F :=
  let noise := numerics.mul
    (numerics.sub (numerics.mul (numerics.ofInt 2) draw) (numerics.ofInt 1)) scenario.profile.noise
  let measuredAt := scenario.startTime.wall + self.index * scenario.intervalMs * 1000
  { deviceId := scenario.deviceId
    bootId := self.currentBoot
    sequenceNumber := self.index - self.bootStart
    measuredAt := measuredAt
    deviceUptimeMs := (self.index - self.bootStart) * scenario.intervalMs
    gatewayReceivedAt := measuredAt
    metric := ascii "temperature"
    value := numerics.round6 (numerics.add (scenario.profile.baseline numerics self.index) noise)
    unit := ascii "celsius"
    reading := ascii "valid"
    clock := ascii "synchronised" }

/-- One turn of the loop of `generate_events`, up to its `yield`. -/
def RunState.next (self : RunState R) : Option (SimulatedEvent F × RunState R) :=
  if (self.index : Int) < scenario.count then
    let current := self.reboot uuid5 scenario
    let (draw, rng) := numerics.random current.rng
    some (current.event numerics scenario draw, { current with index := self.index + 1, rng := rng })
  else none

/-- `generate_events` before its first turn. -/
def RunState.start : RunState R :=
  ⟨0, 0, 0, bootId scenario uuid5 0, numerics.seeded scenario.seed⟩

theorem RunState.left_lt {s s' : RunState R} {event : SimulatedEvent F}
    (h : s.next numerics uuid5 scenario = some (event, s')) :
    scenario.count.toNat - s'.index < scenario.count.toNat - s.index := by
  unfold RunState.next at h
  split at h
  · next hlt =>
    obtain ⟨-, rfl⟩ := Prod.mk.inj (Option.some.inj h)
    simp only
    omega
  · simp at h

/-- `generate_events`. -/
def generator : Generator (RunState R) (SimulatedEvent F) where
  next := RunState.next numerics uuid5 scenario
  size s := scenario.count.toNat - s.index
  size_lt := RunState.left_lt numerics uuid5 scenario

/-- `list(generate_events(scenario))`. -/
def generateEvents : List (SimulatedEvent F) :=
  (generator numerics uuid5 scenario).toList (RunState.start numerics uuid5 scenario)

structure Batch (F : Type) where
  schemaVersion : Int
  events : List (SimulatedEvent F)

def batches (batchSize : Int) : Except String (List (Batch F)) := do
  integer batchSize "batch_size" 1 500
  return ((generator numerics uuid5 scenario).chunks batchSize.toNat
    (RunState.start numerics uuid5 scenario)).map (Batch.mk 1)

end Generate

end EquipmentMonitoring.Simulator
