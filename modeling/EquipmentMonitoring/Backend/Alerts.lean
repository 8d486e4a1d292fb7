import EquipmentMonitoring.Backend.Database

/-!
# Alert Evaluation (`alerts/service.py`)

`evaluate_accepted_reading` works on objects of the session: it changes attributes, and the
session writes the changed objects when it is flushed. Streaks therefore exist in memory with
values the table would refuse.

## Layers

- `Session`: the rows of the transaction, the objects not written yet, the `states` of the batch
- `Session.flush`, `Session.getState`, `Session.getEpisode`: the session's side
- `evaluateAcceptedReading`: the program
-/

namespace EquipmentMonitoring.Backend

/-! ## Thresholds -/

def highThreshold : Int := 30

def recoveryThreshold : Int := 28

def consecutiveReadings : Nat := 3

def maxReadingAge : Time := microseconds 300

def maxFutureSkew : Time := microseconds 60

def isHigh (value : Decimal) : Bool := value.compareInt highThreshold == .gt

def isRecovered (value : Decimal) : Bool := value.compareInt recoveryThreshold == .lt

theorem isHigh_iff {value : Decimal} : isHigh value = true ↔ 30 < value.toRat := by
  rw [isHigh, Decimal.compareInt_eq, beq_iff_eq, compare_gt_iff_gt]
  simp [highThreshold]

theorem isRecovered_iff {value : Decimal} : isRecovered value = true ↔ value.toRat < 28 := by
  rw [isRecovered, Decimal.compareInt_eq, beq_iff_eq, compare_lt_iff_lt]
  simp [recoveryThreshold]

/-- The streak after a reading: one more, or none. -/
def countStreak (counts : Bool) (streak : Nat) : Nat := if counts then streak + 1 else 0

theorem countStreak_le {c : Bool} {n : Nat} (hn : n ≤ 2)
    (hne : countStreak c n ≠ consecutiveReadings) : countStreak c n ≤ 2 := by
  cases c with
  | true =>
    simp only [countStreak, consecutiveReadings, if_true] at hne ⊢
    omega
  | false => exact Nat.zero_le 2

theorem counts_of_countStreak {c : Bool} {n : Nat} (h : countStreak c n = consecutiveReadings) :
    c = true := by
  cases c with
  | true => rfl
  | false => simp [countStreak, consecutiveReadings] at h

/-! ## Sessions -/

/-- The transaction's rows, the objects still to be written, and the devices in `states`. -/
structure Session where
  db : Db
  stateObjects : Table AlertState.deviceId
  episodeObjects : Table AlertEpisode.id
  states : List Identifier

namespace Session

/-- A session that has just begun. -/
def start (db : Db) : Session := ⟨db, Table.empty, Table.empty, []⟩

/-- `session.flush()`: write every object. -/
def flush (s : Session) : Except DatabaseError Session := do
  let states ← Table.writeAll s.db.checkState s.db.alerts.alertStates s.stateObjects.rows
  let episodes ← Table.writeAll s.db.checkEpisode s.db.alerts.alertEpisodes s.episodeObjects.rows
  return { s with
    db := { s.db with
      alerts := { s.db.alerts with alertStates := states, alertEpisodes := episodes } }
    stateObjects := Table.empty
    episodeObjects := Table.empty }

/-- The object for the device: the one in the session, or the row. -/
def getState (s : Session) (deviceId : Identifier) : Option AlertState :=
  (s.stateObjects.find? deviceId).or (s.db.alerts.alertStates.find? deviceId)

def getEpisode (s : Session) (id : Nat) : Option AlertEpisode :=
  (s.episodeObjects.find? id).or (s.db.alerts.alertEpisodes.find? id)

/-- Set attributes of the object for a device, or add a new object. -/
def putState (s : Session) (state : AlertState) : Session :=
  { s with stateObjects := s.stateObjects.upsert state }

def putEpisode (s : Session) (episode : AlertEpisode) : Session :=
  { s with episodeObjects := s.episodeObjects.upsert episode }

end Session

/-! ## Evaluation -/

/-- The state object to advance; none when the reading is not later than the last one. -/
def obtainState (s : Session) (deviceId : Identifier) (eventAt : Time) :
    Option (AlertState × Session) :=
  if deviceId ∈ s.states then
    match s.getState deviceId with
    -- in the `states` of this batch, so the database is not asked
    | some state => if eventAt ≤ state.lastEventAt then none else some (state, s)
    | none => none
  else
    match s.getState deviceId with
    | some state =>
      if eventAt ≤ state.lastEventAt then none
      else some (state, { s with states := deviceId :: s.states })
    -- a new object starts at this reading's own time, which is not compared
    | none => some (⟨deviceId, eventAt, 0, 0, none⟩, { s with states := deviceId :: s.states })

/-- The third high reading: the object is written with its streak reset, then names the new row. -/
def openEpisode (s : Session) (state : AlertState) (eventAt : Time) (telemetryId : Nat) :
    Except DatabaseError Session := do
  let s ← (s.putState { state with highStreak := 0 }).flush
  let (id, db) ← s.db.insertEpisode state.deviceId eventAt telemetryId
  return { s with db := db }.putState { state with highStreak := 0, activeEpisodeId := some id }

/-- The third recovered reading. -/
def resolveEpisode (s : Session) (state : AlertState) (id : Nat) (eventAt : Time)
    (telemetryId : Nat) : Except DatabaseError Session := do
  -- session.get flushes the state first, which has no recovery streak by then
  let s ← (s.putState { state with recoveryStreak := 0 }).flush
  match s.getEpisode id with
  | none => throw .noResult
  | some episode =>
    return (s.putEpisode
      { episode with resolvedAt := some eventAt, resolvingTelemetryId := some telemetryId }).putState
        { state with recoveryStreak := 0, activeEpisodeId := none }

/-- The counters and episodes, for an object whose event time has been advanced. -/
def advanceState (s : Session) (state : AlertState) (value : Decimal) (eventAt : Time)
    (telemetryId : Nat) : Except DatabaseError Session :=
  match state.activeEpisodeId with
  | none =>
    -- no active episode: only high readings count
    let highStreak := countStreak (isHigh value) state.highStreak
    if highStreak = consecutiveReadings then openEpisode s state eventAt telemetryId
    else .ok (s.putState { state with highStreak := highStreak })
  | some id =>
    -- an active episode: only recovered readings count
    let recoveryStreak := countStreak (isRecovered value) state.recoveryStreak
    if recoveryStreak = consecutiveReadings then resolveEpisode s state id eventAt telemetryId
    else .ok (s.putState { state with recoveryStreak := recoveryStreak })

def isFresh (backendReceivedAt eventAt : Time) : Bool :=
  decide (backendReceivedAt - maxReadingAge ≤ eventAt) &&
    decide (eventAt ≤ backendReceivedAt + maxFutureSkew)

def evaluateAcceptedReading (s : Session) (item : TelemetryEvent) (telemetryId : Nat)
    (backendReceivedAt : Time) : Except DatabaseError Session :=
  if !isFresh backendReceivedAt item.eventAt then .ok s
  else
    match obtainState s item.deviceId item.eventAt with
    | none => .ok s
    | some (state, s) =>
      advanceState s { state with lastEventAt := item.eventAt } item.value item.eventAt telemetryId

end EquipmentMonitoring.Backend
