import EquipmentMonitoring.Backend.Alerts

/-!
# Alert Rows

What one accepted reading does to the rows of the two alert tables, without sessions and writes,
and the invariant of those rows.

## Key Results

- `AlertTables.advance`: the rows after a reading
- `AlertTables.Sound`: the invariant of the two tables
- `advance_sound`: every reading keeps it
-/

namespace EquipmentMonitoring.Backend

/-! ## Readings -/

/-- An accepted reading, as its telemetry row has it. -/
structure Reading where
  deviceId : Identifier
  telemetryId : Nat
  eventAt : Time
  value : Decimal
  receivedAt : Time
deriving DecidableEq

def Telemetry.reading (row : Telemetry) : Reading :=
  ⟨row.deviceId, row.id, row.eventAt, row.value, row.backendReceivedAt⟩

namespace AlertTables

def empty : AlertTables := ⟨Table.empty, Table.empty, 0⟩

/-! ## Effects -/

def putState (a : AlertTables) (state : AlertState) : AlertTables :=
  { a with alertStates := a.alertStates.upsert state }

def putEpisode (a : AlertTables) (episode : AlertEpisode) : AlertTables :=
  { a with alertEpisodes := a.alertEpisodes.upsert episode }

/-- The row an opening adds. -/
def newEpisode (a : AlertTables) (r : Reading) : AlertEpisode :=
  ⟨a.nextEpisodeId, r.deviceId, r.eventAt, none, r.telemetryId, none⟩

def addEpisode (a : AlertTables) (r : Reading) : AlertTables :=
  { a with
    alertEpisodes := a.alertEpisodes.upsert (a.newEpisode r)
    nextEpisodeId := a.nextEpisodeId + 1 }

def openBy (a : AlertTables) (state : AlertState) (r : Reading) : AlertTables :=
  (a.addEpisode r).putState
    { state with highStreak := 0, activeEpisodeId := some a.nextEpisodeId }

def resolvedBy (e : AlertEpisode) (r : Reading) : AlertEpisode :=
  { e with resolvedAt := some r.eventAt, resolvingTelemetryId := some r.telemetryId }

def resolveBy (a : AlertTables) (state : AlertState) (e : AlertEpisode) (r : Reading) :
    AlertTables :=
  (a.putEpisode (resolvedBy e r)).putState
    { state with recoveryStreak := 0, activeEpisodeId := none }

/-- The state the reading is evaluated in, its event time advanced; none for a reading that is not
later than the last one. -/
def candidate (a : AlertTables) (r : Reading) : Option AlertState :=
  match a.alertStates.find? r.deviceId with
  | some state =>
    if r.eventAt ≤ state.lastEventAt then none else some { state with lastEventAt := r.eventAt }
  | none => some ⟨r.deviceId, r.eventAt, 0, 0, none⟩

def advanceRow (a : AlertTables) (state : AlertState) (r : Reading) : AlertTables :=
  match state.activeEpisodeId with
  | none =>
    -- normal mode: only readings above the high threshold in a row count
    let highStreak := countStreak (isHigh r.value) state.highStreak
    if highStreak = consecutiveReadings then a.openBy state r
    else a.putState { state with highStreak := highStreak }
  | some id =>
    -- in an episode: only readings below the recovery threshold in a row count
    let recoveryStreak := countStreak (isRecovered r.value) state.recoveryStreak
    if recoveryStreak = consecutiveReadings then
      match a.alertEpisodes.find? id with
      | some e => a.resolveBy state e r
      | none => a
    else a.putState { state with recoveryStreak := recoveryStreak }

/-- The rows after an accepted reading. -/
def advance (a : AlertTables) (r : Reading) : AlertTables :=
  if isFresh r.receivedAt r.eventAt then
    match a.candidate r with
    | some state => a.advanceRow state r
    | none => a
  else a

end AlertTables

namespace AlertTables

theorem putState_putState {a : AlertTables} {state state' : AlertState}
    (h : state.deviceId = state'.deviceId) :
    (a.putState state).putState state' = a.putState state' := by
  simp only [putState, Table.upsert_upsert h]

/-- An opening after the write of the reset streak. -/
theorem openBy_eq (a : AlertTables) (state : AlertState) (r : Reading) :
    ((a.putState { state with highStreak := 0 }).addEpisode r).putState
        { state with highStreak := 0, activeEpisodeId := some a.nextEpisodeId } =
      a.openBy state r :=
  putState_putState (a := a.addEpisode r) rfl

/-- A resolution after the write of the reset streak. -/
theorem resolveBy_eq (a : AlertTables) (state : AlertState) (e : AlertEpisode) (r : Reading) :
    ((a.putState { state with recoveryStreak := 0 }).putEpisode (resolvedBy e r)).putState
        { state with recoveryStreak := 0, activeEpisodeId := none } =
      a.resolveBy state e r :=
  putState_putState (a := a.putEpisode (resolvedBy e r)) rfl

end AlertTables

/-! ## The Invariant -/

/-- The episode is as its telemetry rows say. -/
structure AlertEpisode.Sound (stored : Telemetry → Prop) (e : AlertEpisode) : Prop where
  opening : ∃ row, stored row ∧ row.id = e.openingTelemetryId ∧ row.deviceId = e.deviceId ∧
    row.eventAt = e.openedAt ∧ 30 < row.value.toRat
  unresolved : e.resolvedAt = none → e.resolvingTelemetryId = none
  resolving : ∀ t, e.resolvedAt = some t → e.openedAt < t ∧
    ∃ row, stored row ∧ e.resolvingTelemetryId = some row.id ∧ row.deviceId = e.deviceId ∧
      row.eventAt = t ∧ row.value.toRat < 28

/-- The streaks fit the mode. -/
structure AlertState.Bounded (s : AlertState) : Prop where
  high : s.highStreak ≤ 2
  recovery : s.recoveryStreak ≤ 2
  high_active : s.activeEpisodeId ≠ none → s.highStreak = 0
  recovery_idle : s.activeEpisodeId = none → s.recoveryStreak = 0

namespace AlertTables

variable {known : Identifier → Prop} {stored : Telemetry → Prop} {a : AlertTables}

/-- The invariant of the two tables, over the devices and the telemetry rows there are. -/
structure Sound (known : Identifier → Prop) (stored : Telemetry → Prop) (a : AlertTables) :
    Prop where
  bounded : ∀ s ∈ a.alertStates, s.Bounded
  active : ∀ s ∈ a.alertStates, ∀ id, s.activeEpisodeId = some id →
    ∃ e ∈ a.alertEpisodes, e.id = id ∧ e.deviceId = s.deviceId ∧ e.resolvedAt = none
  unresolved : ∀ e ∈ a.alertEpisodes, e.resolvedAt = none →
    ∃ s ∈ a.alertStates, s.deviceId = e.deviceId ∧ s.activeEpisodeId = some e.id
  episodes : ∀ e ∈ a.alertEpisodes, e.Sound stored
  cursor : ∀ e ∈ a.alertEpisodes, ∃ s ∈ a.alertStates, s.deviceId = e.deviceId ∧
    e.openedAt ≤ s.lastEventAt ∧ ∀ t, e.resolvedAt = some t → t ≤ s.lastEventAt
  ids : ∀ e ∈ a.alertEpisodes, e.id < a.nextEpisodeId
  openings : ∀ e ∈ a.alertEpisodes, ∀ e' ∈ a.alertEpisodes,
    e.openingTelemetryId = e'.openingTelemetryId → e = e'
  resolvings : ∀ e ∈ a.alertEpisodes, ∀ e' ∈ a.alertEpisodes,
    e.resolvingTelemetryId ≠ none → e.resolvingTelemetryId = e'.resolvingTelemetryId → e = e'
  devices : ∀ s ∈ a.alertStates, known s.deviceId

theorem sound_empty (next : Nat) : Sound known stored ⟨Table.empty, Table.empty, next⟩ := by
  constructor <;> simp

theorem Sound.mono {known' : Identifier → Prop} {stored' : Telemetry → Prop}
    (h : Sound known stored a) (hknown : ∀ d, known d → known' d)
    (hstored : ∀ row, stored row → stored' row) : Sound known' stored' a := by
  refine { h with devices := fun s hs => hknown _ (h.devices s hs), episodes := fun e he => ?_ }
  obtain ⟨⟨row, hrow, hopening⟩, hunresolved, hresolving⟩ := h.episodes e he
  refine ⟨⟨row, hstored row hrow, hopening⟩, hunresolved, fun t ht => ?_⟩
  obtain ⟨hlater, row, hrow, hresolved⟩ := hresolving t ht
  exact ⟨hlater, row, hstored row hrow, hresolved⟩

theorem Sound.episode_known (h : Sound known stored a) {e : AlertEpisode}
    (he : e ∈ a.alertEpisodes) : known e.deviceId := by
  obtain ⟨s, hs, hdevice, -⟩ := h.cursor e he
  exact hdevice ▸ h.devices s hs

/-- A state that may take the place of its device's row. -/
structure Fits (a : AlertTables) (state : AlertState) : Prop where
  bounded : state.Bounded
  active : ∀ id, state.activeEpisodeId = some id →
    ∃ e ∈ a.alertEpisodes, e.id = id ∧ e.deviceId = state.deviceId ∧ e.resolvedAt = none
  unresolved : ∀ e ∈ a.alertEpisodes, e.deviceId = state.deviceId → e.resolvedAt = none →
    state.activeEpisodeId = some e.id
  later : ∀ e ∈ a.alertEpisodes, e.deviceId = state.deviceId →
    e.openedAt < state.lastEventAt ∧ ∀ t, e.resolvedAt = some t → t < state.lastEventAt

/-- The candidate fits: it is its device's row at a later time, or the first of its device. -/
theorem candidate_fits (h : Sound known stored a) {r : Reading} {state : AlertState}
    (hc : a.candidate r = some state) :
    state.deviceId = r.deviceId ∧ state.lastEventAt = r.eventAt ∧ Fits a state := by
  unfold candidate at hc
  split at hc
  · next old hold =>
    obtain ⟨hrow, hdevice⟩ := Table.find?_eq_some.mp hold
    split at hc
    · simp at hc
    · next hlater =>
      obtain rfl := Option.some.inj hc
      have hbounded := h.bounded old hrow
      refine ⟨hdevice, rfl, ⟨hbounded.1, hbounded.2, hbounded.3, hbounded.4⟩, h.active old hrow,
        fun e he hid hopen => ?_, fun e he hid => ?_⟩
      · obtain ⟨s, hs, hs', hactive⟩ := h.unresolved e he hopen
        obtain rfl : s = old := Table.eq_of_key_eq hs hrow (hs'.trans hid)
        exact hactive
      · obtain ⟨s, hs, hs', hopened, hresolved⟩ := h.cursor e he
        obtain rfl : s = old := Table.eq_of_key_eq hs hrow (hs'.trans hid)
        have hlast : s.lastEventAt < r.eventAt := not_le.mp hlater
        exact ⟨hopened.trans_lt hlast, fun t ht => (hresolved t ht).trans_lt hlast⟩
  · next hnone =>
    obtain rfl := Option.some.inj hc
    -- no episode without a state of its device
    have hno : ∀ e ∈ a.alertEpisodes, e.deviceId ≠ r.deviceId := by
      intro e he hid
      obtain ⟨s, hs, hs', -⟩ := h.cursor e he
      exact Table.find?_eq_none.mp hnone s hs (hs'.trans hid)
    refine ⟨rfl, rfl, ⟨by simp, by simp, by simp, by simp⟩, by simp, ?_, ?_⟩
    · exact fun e he hid => absurd hid (hno e he)
    · exact fun e he hid => absurd hid (hno e he)

/-- A state that fits can be written. -/
theorem putState_sound (h : Sound known stored a) {state : AlertState} (hfits : Fits a state)
    (hknown : known state.deviceId) : Sound known stored (a.putState state) := by
  -- Every clause about a state splits on whether it is the row just written.
  have hmem {s : AlertState} : s ∈ (a.putState state).alertStates ↔
      s = state ∨ (s ∈ a.alertStates ∧ s.deviceId ≠ state.deviceId) := Table.mem_upsert
  refine { h with bounded := ?_, active := ?_, unresolved := ?_, cursor := ?_, devices := ?_ }
  · intro s hs
    rcases hmem.mp hs with rfl | ⟨hs, -⟩
    · exact hfits.bounded
    · exact h.bounded s hs
  · intro s hs
    rcases hmem.mp hs with rfl | ⟨hs, -⟩
    · exact hfits.active
    · exact h.active s hs
  · intro e he hopen
    -- the row that held this episode as active may be the one replaced: the new row holds it too
    obtain ⟨s, hs, hdevice, hactive⟩ := h.unresolved e he hopen
    by_cases hself : e.deviceId = state.deviceId
    · exact ⟨state, hmem.mpr (.inl rfl), hself.symm, hfits.unresolved e he hself hopen⟩
    · exact ⟨s, hmem.mpr (.inr ⟨hs, hdevice ▸ hself⟩), hdevice, hactive⟩
  · intro e he
    obtain ⟨s, hs, hdevice, hcursor⟩ := h.cursor e he
    by_cases hself : e.deviceId = state.deviceId
    · obtain ⟨hopened, hresolved⟩ := hfits.later e he hself
      exact ⟨state, hmem.mpr (.inl rfl), hself.symm, hopened.le, fun t ht => (hresolved t ht).le⟩
    · exact ⟨s, hmem.mpr (.inr ⟨hs, hdevice ▸ hself⟩), hdevice, hcursor⟩
  · intro s hs
    rcases hmem.mp hs with rfl | ⟨hs, -⟩
    · exact hknown
    · exact h.devices s hs

/-- The reading is a stored row whose id no episode names. -/
structure Fresh (known : Identifier → Prop) (stored : Telemetry → Prop) (a : AlertTables)
    (r : Reading) : Prop where
  row : ∃ row, stored row ∧ row.reading = r
  known : known r.deviceId
  opening : ∀ e ∈ a.alertEpisodes, e.openingTelemetryId ≠ r.telemetryId
  resolving : ∀ e ∈ a.alertEpisodes, e.resolvingTelemetryId ≠ some r.telemetryId

theorem newEpisode_sound {r : Reading} (hr : Fresh known stored a r) (hhigh : isHigh r.value = true) :
    (a.newEpisode r).Sound stored := by
  obtain ⟨row, hrow, rfl⟩ := hr.row
  refine ⟨⟨row, hrow, rfl, rfl, rfl, isHigh_iff.mp hhigh⟩, fun _ => rfl, ?_⟩
  simp [newEpisode]

/-- An episode may be opened for a device without one. -/
theorem openBy_sound (h : Sound known stored a) {state : AlertState} {r : Reading}
    (hr : Fresh known stored a r) (hfits : Fits a state) (hdevice : state.deviceId = r.deviceId)
    (hlast : state.lastEventAt = r.eventAt) (hidle : state.activeEpisodeId = none)
    (hhigh : isHigh r.value = true) : Sound known stored (a.openBy state r) := by
  have hfresh : ∀ e ∈ a.alertEpisodes, e.id ≠ (a.newEpisode r).id := fun e he hid =>
    absurd (h.ids e he) (by rw [hid]; exact Nat.lt_irrefl _)
  have hepisode {e : AlertEpisode} : e ∈ (a.openBy state r).alertEpisodes ↔
      e = a.newEpisode r ∨ e ∈ a.alertEpisodes := by
    refine Table.mem_upsert.trans (or_congr_right ⟨fun he => he.1, fun he => ⟨he, hfresh e he⟩⟩)
  have hstate {s : AlertState} : s ∈ (a.openBy state r).alertStates ↔
      s = { state with highStreak := 0, activeEpisodeId := some a.nextEpisodeId } ∨
        (s ∈ a.alertStates ∧ s.deviceId ≠ state.deviceId) := Table.mem_upsert
  constructor
  · intro s hs
    rcases hstate.mp hs with rfl | ⟨hs, -⟩
    · exact ⟨by simp, hfits.bounded.recovery, by simp, by simp⟩
    · exact h.bounded s hs
  · intro s hs id hid
    rcases hstate.mp hs with rfl | ⟨hs, -⟩
    · exact ⟨_, hepisode.mpr (.inl rfl), Option.some.inj hid, hdevice.symm, rfl⟩
    · obtain ⟨e, he, hactive⟩ := h.active s hs id hid
      exact ⟨e, hepisode.mpr (.inr he), hactive⟩
  · intro e he hopen
    rcases hepisode.mp he with rfl | he
    · exact ⟨_, hstate.mpr (.inl rfl), hdevice, rfl⟩
    · obtain ⟨s, hs, hs', hactive⟩ := h.unresolved e he hopen
      refine ⟨s, hstate.mpr (.inr ⟨hs, fun hself => ?_⟩), hs', hactive⟩
      -- the device has no episode open
      have := hfits.unresolved e he (hs'.symm.trans hself) hopen
      rw [hidle] at this
      exact absurd this (by simp)
  · intro e he
    rcases hepisode.mp he with rfl | he
    · exact newEpisode_sound hr hhigh
    · exact h.episodes e he
  · intro e he
    rcases hepisode.mp he with rfl | he
    · exact ⟨_, hstate.mpr (.inl rfl), hdevice, le_of_eq hlast.symm, by simp [newEpisode]⟩
    · obtain ⟨s, hs, hs', hcursor⟩ := h.cursor e he
      by_cases hself : e.deviceId = state.deviceId
      · obtain ⟨hopened, hresolved⟩ := hfits.later e he hself
        exact ⟨_, hstate.mpr (.inl rfl), hself.symm, hopened.le, fun t ht => (hresolved t ht).le⟩
      · exact ⟨s, hstate.mpr (.inr ⟨hs, hs' ▸ hself⟩), hs', hcursor⟩
  · intro e he
    rcases hepisode.mp he with rfl | he
    · exact Nat.lt_succ_self _
    · exact Nat.lt_succ_of_lt (h.ids e he)
  · intro e he e' he' hid
    rcases hepisode.mp he with rfl | he <;> rcases hepisode.mp he' with rfl | he'
    · rfl
    · exact absurd hid.symm (hr.opening e' he')
    · exact absurd hid (hr.opening e he)
    · exact h.openings e he e' he' hid
  · intro e he e' he' hne hid
    rcases hepisode.mp he with rfl | he <;> rcases hepisode.mp he' with rfl | he'
    · rfl
    · exact absurd rfl hne
    · exact absurd (hid.trans rfl) hne
    · exact h.resolvings e he e' he' hne hid
  · intro s hs
    rcases hstate.mp hs with rfl | ⟨hs, -⟩
    · exact hdevice ▸ hr.known
    · exact h.devices s hs

/-- The active episode may be resolved. -/
theorem resolveBy_sound (h : Sound known stored a) {state : AlertState} {e : AlertEpisode}
    {r : Reading} (hr : Fresh known stored a r) (hfits : Fits a state)
    (hdevice : state.deviceId = r.deviceId) (hlast : state.lastEventAt = r.eventAt)
    (he : e ∈ a.alertEpisodes) (hactive : state.activeEpisodeId = some e.id)
    (hrecovered : isRecovered r.value = true) : Sound known stored (a.resolveBy state e r) := by
  -- The active pointer of the row leads to this episode, which is therefore unresolved and its own.
  have howner : e.deviceId = state.deviceId ∧ e.resolvedAt = none := by
    obtain ⟨e', he', hid, howner⟩ := hfits.active _ hactive
    rwa [Table.eq_of_key_eq he' he hid] at howner
  have hepisode {e' : AlertEpisode} : e' ∈ (a.resolveBy state e r).alertEpisodes ↔
      e' = resolvedBy e r ∨ (e' ∈ a.alertEpisodes ∧ e'.id ≠ e.id) := Table.mem_upsert
  have hstate {s : AlertState} : s ∈ (a.resolveBy state e r).alertStates ↔
      s = { state with recoveryStreak := 0, activeEpisodeId := none } ∨
        (s ∈ a.alertStates ∧ s.deviceId ≠ state.deviceId) := Table.mem_upsert
  have hhigh : state.highStreak = 0 := hfits.bounded.high_active (by simp [hactive])
  constructor
  · intro s hs
    rcases hstate.mp hs with rfl | ⟨hs, -⟩
    · exact ⟨by simp [hhigh], by simp, by simp, by simp⟩
    · exact h.bounded s hs
  · intro s hs id hid
    rcases hstate.mp hs with rfl | ⟨hs, hother⟩
    · simp at hid
    · -- a row of another device cannot point at the episode that has just been resolved
      obtain ⟨e', he', hid', hdevice', hopen⟩ := h.active s hs id hid
      refine ⟨e', hepisode.mpr (.inr ⟨he', fun hsame => ?_⟩), hid', hdevice', hopen⟩
      obtain rfl := Table.eq_of_key_eq he' he hsame
      exact hother (hdevice'.symm.trans howner.1)
  · intro e' he' hopen
    rcases hepisode.mp he' with rfl | ⟨he', hne⟩
    · simp [resolvedBy] at hopen
    · -- an episode still open is another device's: this device had only the resolved one
      obtain ⟨s, hs, hs', hactive'⟩ := h.unresolved e' he' hopen
      refine ⟨s, hstate.mpr (.inr ⟨hs, fun hself => hne ?_⟩), hs', hactive'⟩
      have := hfits.unresolved e' he' (hs'.symm.trans hself) hopen
      rw [hactive] at this
      exact (Option.some.inj this).symm
  · intro e' he'
    rcases hepisode.mp he' with rfl | ⟨he', -⟩
    · -- the resolving reading is later than the opening one: the row's cursor lies between them
      obtain ⟨hopening, -, -⟩ := h.episodes e he
      obtain ⟨row, hrow, rfl⟩ := hr.row
      refine ⟨hopening, by simp [resolvedBy], fun t ht => ?_⟩
      obtain rfl : row.eventAt = t := by simpa [resolvedBy, Telemetry.reading] using ht
      have hlater : e.openedAt < row.eventAt :=
        lt_of_lt_of_eq (hfits.later e he howner.1).1 hlast
      exact ⟨hlater, row, hrow, rfl, hdevice.symm.trans howner.1.symm, rfl,
        isRecovered_iff.mp hrecovered⟩
    · exact h.episodes e' he'
  · intro e' he'
    rcases hepisode.mp he' with rfl | ⟨he', -⟩
    · refine ⟨_, hstate.mpr (.inl rfl), howner.1.symm, (hfits.later e he howner.1).1.le, ?_⟩
      intro t ht
      obtain rfl : r.eventAt = t := by simpa [resolvedBy] using ht
      exact le_of_eq hlast.symm
    · obtain ⟨s, hs, hs', hcursor⟩ := h.cursor e' he'
      by_cases hself : e'.deviceId = state.deviceId
      · obtain ⟨hopened, hresolved⟩ := hfits.later e' he' hself
        exact ⟨_, hstate.mpr (.inl rfl), hself.symm, hopened.le, fun t ht => (hresolved t ht).le⟩
      · exact ⟨s, hstate.mpr (.inr ⟨hs, hs' ▸ hself⟩), hs', hcursor⟩
  · intro e' he'
    rcases hepisode.mp he' with rfl | ⟨he', -⟩
    · exact h.ids e he
    · exact h.ids e' he'
  · intro e₁ he₁ e₂ he₂ hid
    rcases hepisode.mp he₁ with rfl | ⟨he₁, hne₁⟩ <;> rcases hepisode.mp he₂ with rfl | ⟨he₂, hne₂⟩
    · rfl
    · exact absurd (congrArg AlertEpisode.id (h.openings e he e₂ he₂ hid)).symm hne₂
    · exact absurd (congrArg AlertEpisode.id (h.openings e₁ he₁ e he hid)) hne₁
    · exact h.openings e₁ he₁ e₂ he₂ hid
  · intro e₁ he₁ e₂ he₂ hne hid
    rcases hepisode.mp he₁ with rfl | ⟨he₁, -⟩ <;> rcases hepisode.mp he₂ with rfl | ⟨he₂, -⟩
    · rfl
    · exact absurd hid.symm (hr.resolving e₂ he₂)
    · exact absurd hid (hr.resolving e₁ he₁)
    · exact h.resolvings e₁ he₁ e₂ he₂ hne hid
  · intro s hs
    rcases hstate.mp hs with rfl | ⟨hs, -⟩
    · exact hdevice ▸ hr.known
    · exact h.devices s hs

/-- The candidate with its high streak set, while no episode is active. -/
theorem Fits.setHigh {state : AlertState} (h : Fits a state) (hidle : state.activeEpisodeId = none)
    {n : Nat} (hn : n ≤ 2) : Fits a { state with highStreak := n } :=
  ⟨⟨hn, h.bounded.recovery, by simp [hidle], h.bounded.recovery_idle⟩, h.active, h.unresolved,
    h.later⟩

/-- The candidate with its recovery streak set, while an episode is active. -/
theorem Fits.setRecovery {state : AlertState} (h : Fits a state) {id : Nat}
    (hactive : state.activeEpisodeId = some id) {n : Nat} (hn : n ≤ 2) :
    Fits a { state with recoveryStreak := n } :=
  ⟨⟨h.bounded.high, hn, h.bounded.high_active, by simp [hactive]⟩, h.active, h.unresolved, h.later⟩

theorem advanceRow_sound (h : Sound known stored a) {state : AlertState} {r : Reading}
    (hr : Fresh known stored a r) (hfits : Fits a state) (hdevice : state.deviceId = r.deviceId)
    (hlast : state.lastEventAt = r.eventAt) : Sound known stored (a.advanceRow state r) := by
  have hknown : known state.deviceId := hdevice ▸ hr.known
  unfold advanceRow
  split
  · next hidle =>
    simp only
    split
    · next hcount => exact openBy_sound h hr hfits hdevice hlast hidle (counts_of_countStreak hcount)
    · next hcount =>
      exact putState_sound h (hfits.setHigh hidle (countStreak_le hfits.bounded.high hcount)) hknown
  · next id hactive =>
    simp only
    split
    · next hcount =>
      obtain ⟨e, he, rfl, -⟩ := hfits.active id hactive
      rw [Table.find?_eq_some.mpr ⟨he, rfl⟩]
      exact resolveBy_sound h hr hfits hdevice hlast he hactive (counts_of_countStreak hcount)
    · next hcount =>
      exact putState_sound h (hfits.setRecovery hactive (countStreak_le hfits.bounded.recovery hcount)) hknown

/-- Every accepted reading keeps the invariant. -/
theorem advance_sound (h : Sound known stored a) {r : Reading} (hr : Fresh known stored a r) :
    Sound known stored (a.advance r) := by
  unfold advance
  split
  · cases hc : a.candidate r with
    | none => exact h
    | some state =>
      obtain ⟨hdevice, hlast, hfits⟩ := candidate_fits h hc
      exact advanceRow_sound h hr hfits hdevice hlast
  · exact h

/-- An evaluated reading writes the state of its device. -/
theorem advanceRow_states {state : AlertState} {r : Reading} (hfits : Fits a state) :
    ∃ x : AlertState, (a.advanceRow state r).alertStates = a.alertStates.upsert x ∧
      x.deviceId = state.deviceId ∧ x.lastEventAt = state.lastEventAt := by
  unfold advanceRow
  split
  · simp only
    split
    · exact ⟨_, rfl, rfl, rfl⟩
    · exact ⟨_, rfl, rfl, rfl⟩
  · next id hactive =>
    simp only
    split
    · -- the active episode exists, so the row is written in this branch too
      obtain ⟨e, he, rfl, -⟩ := hfits.active id hactive
      rw [Table.find?_eq_some.mpr ⟨he, rfl⟩]
      exact ⟨_, rfl, rfl, rfl⟩
    · exact ⟨_, rfl, rfl, rfl⟩

/-- No state is lost, and none goes back in time. -/
theorem advance_cursor (h : Sound known stored a) (r : Reading) {s : AlertState}
    (hs : s ∈ a.alertStates) :
    ∃ s' ∈ (a.advance r).alertStates, s'.deviceId = s.deviceId ∧ s.lastEventAt ≤ s'.lastEventAt := by
  unfold advance
  split
  · cases hc : a.candidate r with
    | none => exact ⟨s, hs, rfl, le_refl _⟩
    | some state =>
      obtain ⟨hdevice, hlast, hfits⟩ := candidate_fits h hc
      obtain ⟨x, hstates, hx, hx'⟩ := advanceRow_states (r := r) hfits
      simp only [hstates]
      by_cases hself : s.deviceId = x.deviceId
      · refine ⟨x, Table.mem_upsert.mpr (.inl rfl), hself.symm, ?_⟩
        -- the reading was later than the last one
        have hfind := Table.find?_eq_some.mpr ⟨hs, hself.trans (hx.trans hdevice)⟩
        simp only [candidate, hfind] at hc
        split at hc
        · exact absurd hc (by simp)
        · next hlater => exact hx' ▸ hlast ▸ (not_le.mp hlater).le
      · exact ⟨s, Table.mem_upsert.mpr (.inr ⟨hs, hself⟩), rfl, le_refl _⟩
  · exact ⟨s, hs, rfl, le_refl _⟩

end AlertTables

end EquipmentMonitoring.Backend
