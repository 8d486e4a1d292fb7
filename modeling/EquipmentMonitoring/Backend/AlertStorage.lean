import EquipmentMonitoring.Backend.ItemSteps

/-!
# Alert Storage over Whole Runs

The database goes through transactions: batches that commit, batches that are rolled back, and
changes of the registry between them. The two alert tables start empty.

## Key Results

- `ItemSteps.alertCursors`: no batch takes a state back in time
- `Run.alertsSound`: the invariant of the alert tables in every state reached
- `alert_storage_invariant`: what the tables hold in every state reached
-/

namespace EquipmentMonitoring.Backend

/-! ## Transactions -/

/-- Foreign keys keep the devices that alert rows name. -/
def Db.AlertDevicesKept (db db' : Db) : Prop :=
  ∀ s ∈ db.alerts.alertStates, db'.known s.deviceId

/-- A batch that was rolled back leaves every row as it was; ids may have been used up. -/
structure Db.RolledBack (db db' : Db) : Prop where
  sites : db'.sites = db.sites
  gateways : db'.gateways = db.gateways
  devices : db'.devices = db.devices
  telemetry : db'.telemetry = db.telemetry
  alertStates : db'.alerts.alertStates = db.alerts.alertStates
  alertEpisodes : db'.alerts.alertEpisodes = db.alerts.alertEpisodes
  nextEpisodeId : db.alerts.nextEpisodeId ≤ db'.alerts.nextEpisodeId

/-- What may happen between two states of the database. -/
inductive Transaction (pg : NumericColumn) (db : Db) : Db → Prop
  /-- A batch of any gateway that commits. -/
  | committed {clock : Clock} {gatewayId batchId : Identifier} {batch : ValidatedTelemetryBatch}
      {response : TelemetryBatchResponse} {db' : Db}
      (h : ingestBatch pg clock db gatewayId batch batchId = .ok (response, db')) :
      Transaction pg db db'
  /-- A batch that is rolled back, at any of its statements or at the commit. -/
  | rolledBack {db' : Db} (h : db.RolledBack db') : Transaction pg db db'
  /-- A change of sites, gateways and devices. -/
  | registry {db' : Db} (htelemetry : db'.telemetry = db.telemetry)
      (halerts : db'.alerts = db.alerts) (hkept : db.AlertDevicesKept db') : Transaction pg db db'

/-- Any number of transactions. -/
inductive Run (pg : NumericColumn) : Db → Db → Prop
  | refl (db : Db) : Run pg db db
  | step {db db₁ db₂ : Db} (run : Run pg db db₁) (last : Transaction pg db₁ db₂) : Run pg db db₂

/-- A state without alert rows. -/
def Db.NoAlerts (db : Db) : Prop :=
  db.alerts.alertStates = Table.empty ∧ db.alerts.alertEpisodes = Table.empty

theorem Db.NoAlerts.alertsSound {db : Db} (h : db.NoAlerts) : db.AlertsSound := by
  have halerts : db.alerts = ⟨Table.empty, Table.empty, db.alerts.nextEpisodeId⟩ := by
    rw [← h.1, ← h.2]
  rw [Db.AlertsSound, halerts]
  exact AlertTables.sound_empty _

/-! ## Event Times -/

/-- Every state of the first tables is in the second, no earlier. -/
def AlertTables.Later (a a' : AlertTables) : Prop :=
  ∀ s ∈ a.alertStates, ∃ s' ∈ a'.alertStates,
    s'.deviceId = s.deviceId ∧ s.lastEventAt ≤ s'.lastEventAt

theorem AlertTables.Later.refl (a : AlertTables) : a.Later a :=
  fun s hs => ⟨s, hs, rfl, le_refl _⟩

theorem AlertTables.Later.trans {a₁ a₂ a₃ : AlertTables} (h₁ : a₁.Later a₂) (h₂ : a₂.Later a₃) :
    a₁.Later a₃ := by
  intro s hs
  obtain ⟨s₂, hs₂, hdevice₂, hle₂⟩ := h₁ s hs
  obtain ⟨s₃, hs₃, hdevice₃, hle₃⟩ := h₂ s₂ hs₂
  exact ⟨s₃, hs₃, hdevice₃.trans hdevice₂, le_trans hle₂ hle₃⟩

section Steps

variable {i : Ingestion} {index : Nat} {db db' : Db} {item : BatchItem}
  {result : TelemetryResponseItem} {items : List BatchItem} {results : List TelemetryResponseItem}

/-- One item keeps the alert tables sound and takes no state back in time. -/
theorem ItemStep.alerts (h : ItemStep .advances i index db item result db') (hdb : db.AlertsSound)
    (hi : i.Registered db) : db'.AlertsSound ∧ db.alerts.Later db'.alerts := by
  cases h with
  | response => exact ⟨hdb, .refl _⟩
  | refused => exact ⟨hdb, .refl _⟩
  | dataError => exact ⟨hdb, .refl _⟩
  | duplicate => exact ⟨hdb, .refl _⟩
  | conflict => exact ⟨hdb, .refl _⟩
  | @accepted item value row db₁ alerts hrefusal hvalue hinsert halerts =>
    -- the reading is new, so the tables advance by it and stay sound
    obtain ⟨hsound, hfresh⟩ := insertTelemetry_sound hdb (hi.known hrefusal) hinsert
    have hsame : db₁.alerts = db.alerts := (insertTelemetry_some hinsert).2.2.2.2.2.2.2
    have hadvance : (db₁.withAlerts alerts).AlertsSound := by
      rw [show alerts = db₁.alerts.advance row.reading from hsame ▸ halerts]
      exact AlertTables.advance_sound hsound hfresh
    constructor
    · unfold Db.present
      split
      · exact recordPresence_sound hadvance _ _
      · exact hadvance
    · rw [present_alerts, show (db₁.withAlerts alerts).alerts = alerts from rfl, halerts]
      exact fun s hs => AlertTables.advance_cursor hdb row.reading hs

/-- No batch takes a state back in time. -/
theorem ItemSteps.alertCursors (h : ItemSteps .advances i index db items results db')
    (hdb : db.AlertsSound) (hi : i.Registered db) : db.alerts.Later db'.alerts := by
  induction h with
  | nil => exact .refl _
  | cons head _ ih =>
    obtain ⟨hsound, hlater⟩ := head.alerts hdb hi
    exact hlater.trans (ih hsound (hi.of_sameRegistry head.sameRegistry))

end Steps

/-! ## Runs -/

section Runs

variable {pg : NumericColumn} {db db' : Db}

/-- A transaction keeps the alert tables sound and takes no state back in time. -/
theorem Transaction.alerts (h : Transaction pg db db') (hdb : db.AlertsSound) :
    db'.AlertsSound ∧ db.alerts.Later db'.alerts := by
  cases h with
  | @committed clock gatewayId batchId batch response _ hcommitted =>
    rcases ingestBatch_cases hdb pg clock gatewayId batch batchId with
      hforbidden | ⟨response', db₁, hok, hsteps, hsound⟩
    · rw [hforbidden] at hcommitted
      exact absurd hcommitted (by simp)
    · rw [hok] at hcommitted
      obtain ⟨-, rfl⟩ := Prod.mk.inj (Except.ok.inj hcommitted)
      exact ⟨hsound, hsteps.alertCursors hdb ingestion_registered⟩
  | rolledBack hrolled =>
    have hknown : ∀ d, db.known d → db'.known d := fun d hd => by
      rwa [Db.known, Db.hasDevice, hrolled.devices]
    have hstored : ∀ row, db.stored row → db'.stored row := fun row hrow => by
      rwa [Db.stored, hrolled.telemetry]
    have hsound : AlertTables.Sound db'.known db'.stored db.alerts := hdb.mono hknown hstored
    constructor
    · -- only the next id of an episode may have moved
      constructor
      · rw [hrolled.alertStates]; exact hsound.bounded
      · rw [hrolled.alertStates, hrolled.alertEpisodes]; exact hsound.active
      · rw [hrolled.alertStates, hrolled.alertEpisodes]; exact hsound.unresolved
      · rw [hrolled.alertEpisodes]; exact hsound.episodes
      · rw [hrolled.alertStates, hrolled.alertEpisodes]; exact hsound.cursor
      · rw [hrolled.alertEpisodes]
        exact fun e he => (hsound.ids e he).trans_le hrolled.nextEpisodeId
      · rw [hrolled.alertEpisodes]; exact hsound.openings
      · rw [hrolled.alertEpisodes]; exact hsound.resolvings
      · rw [hrolled.alertStates]; exact hsound.devices
    · intro s hs
      exact ⟨s, hrolled.alertStates.symm ▸ hs, rfl, le_refl _⟩
  | registry htelemetry halerts hkept =>
    constructor
    · rw [Db.AlertsSound, halerts]
      refine { hdb with devices := hkept, episodes := fun e he => ?_ }
      rw [show db'.stored = db.stored from funext fun row => by rw [Db.stored, htelemetry]; rfl]
      exact hdb.episodes e he
    · rw [halerts]
      exact .refl _

theorem Run.alertsSound (h : Run pg db db') (hdb : db.AlertsSound) : db'.AlertsSound := by
  induction h with
  | refl => exact hdb
  | step _ last ih => exact (last.alerts ih).1

theorem Run.later (h : Run pg db db') (hdb : db.AlertsSound) : db.alerts.Later db'.alerts := by
  induction h with
  | refl => exact .refl _
  | step run last ih => exact ih.trans (last.alerts (run.alertsSound hdb)).2

end Runs

/-! ## The Stored Alerts -/

/-- What the rows of the two alert tables say. -/
structure AlertStorage (db : Db) : Prop where
  /-- At most one episode of a device is unresolved. -/
  one_active : ∀ e ∈ db.alerts.alertEpisodes, ∀ e' ∈ db.alerts.alertEpisodes,
    e.deviceId = e'.deviceId → e.resolvedAt = none → e'.resolvedAt = none → e = e'
  /-- An unresolved episode is the one its device's state names. -/
  active_iff : ∀ e ∈ db.alerts.alertEpisodes, e.resolvedAt = none ↔
    ∃ s ∈ db.alerts.alertStates, s.deviceId = e.deviceId ∧ s.activeEpisodeId = some e.id
  /-- What a state names is an unresolved episode of its device. -/
  active_exists : ∀ s ∈ db.alerts.alertStates, ∀ id, s.activeEpisodeId = some id →
    ∃ e ∈ db.alerts.alertEpisodes, e.id = id ∧ e.deviceId = s.deviceId ∧ e.resolvedAt = none
  /-- The streaks are in range, and only the one of the mode counts. -/
  streaks : ∀ s ∈ db.alerts.alertStates, s.Bounded
  /-- An episode opens with its telemetry row, of a value above 30. -/
  opening : ∀ e ∈ db.alerts.alertEpisodes, ∃ row ∈ db.telemetry,
    row.id = e.openingTelemetryId ∧ row.deviceId = e.deviceId ∧ row.eventAt = e.openedAt ∧
      30 < row.value.toRat
  /-- It resolves later with its telemetry row, of a value below 28. -/
  resolving : ∀ e ∈ db.alerts.alertEpisodes, ∀ t, e.resolvedAt = some t → e.openedAt < t ∧
    ∃ row ∈ db.telemetry, e.resolvingTelemetryId = some row.id ∧ row.deviceId = e.deviceId ∧
      row.eventAt = t ∧ row.value.toRat < 28
  /-- An unresolved episode has no resolving row. -/
  unresolved : ∀ e ∈ db.alerts.alertEpisodes, e.resolvedAt = none → e.resolvingTelemetryId = none

theorem Db.AlertsSound.storage {db : Db} (h : db.AlertsSound) : AlertStorage db where
  one_active := by
    intro e he e' he' hdevice hopen hopen'
    obtain ⟨s, hs, howner, hactive⟩ := h.unresolved e he hopen
    obtain ⟨s', hs', howner', hactive'⟩ := h.unresolved e' he' hopen'
    -- one state for the device, which names one episode
    obtain rfl := Table.eq_of_key_eq hs hs' (howner.trans (hdevice.trans howner'.symm))
    exact Table.eq_of_key_eq he he' (Option.some.inj (hactive.symm.trans hactive'))
  active_iff := by
    intro e he
    refine ⟨h.unresolved e he, fun ⟨s, hs, _, hactive⟩ => ?_⟩
    obtain ⟨e', he', hid, -, hopen⟩ := h.active s hs e.id hactive
    rwa [Table.eq_of_key_eq he' he hid] at hopen
  active_exists := h.active
  streaks := h.bounded
  opening := fun e he => (h.episodes e he).opening
  resolving := fun e he => (h.episodes e he).resolving
  unresolved := fun e he => (h.episodes e he).unresolved

/-- In every state reached from one without alert rows the stored alerts are as they should be,
event times have not gone back, and no batch fails on a constraint of the alert tables. -/
theorem alert_storage_invariant {pg : NumericColumn} {db₀ db db' : Db} (hempty : db₀.NoAlerts)
    (hreached : Run pg db₀ db) (hlater : Run pg db db') :
    AlertStorage db ∧ db.alerts.Later db'.alerts ∧
      ∀ clock gatewayId batch batchId error,
        ingestBatch pg clock db gatewayId batch batchId ≠ .error (.database error) := by
  have hsound : db.AlertsSound := hreached.alertsSound hempty.alertsSound
  refine ⟨hsound.storage, hlater.later hsound, fun clock gatewayId batch batchId error hfailed => ?_⟩
  rcases ingestBatch_cases hsound pg clock gatewayId batch batchId with hforbidden | ⟨_, _, hok, -⟩
  · rw [hforbidden] at hfailed
    exact absurd hfailed (by simp)
  · rw [hok] at hfailed
    exact absurd hfailed (by simp)

/-- Three high readings and their episode. -/
theorem alert_storage_invariant_sample :
    ∃ response db, ingestBatch exactColumn sampleClock sampleDb sampleGateway sampleBatch
      sampleBoot = .ok (response, db) ∧ db.alerts.alertEpisodes.rows.length = 1 ∧
      AlertStorage db := by
  obtain ⟨response, db, hok, hcount⟩ := sampleBatch_commits
  have hrun : Run exactColumn sampleDb db := .step (.refl _) (.committed hok)
  exact ⟨response, db, hok, hcount, (alert_storage_invariant ⟨rfl, rfl⟩ hrun (.refl db)).1⟩

end EquipmentMonitoring.Backend
