import EquipmentMonitoring.Backend.AlertRows

/-!
# Sessions Write What Was Evaluated

A session holds objects that are written later. Its view is the tables as they will be; the
evaluation of a reading advances the view as `AlertTables.advance` says, and every write on the
way passes every constraint.

## Key Results

- `flush_ok`: in a sound session a flush succeeds and leaves the view as rows
- `evaluate_ok`: in a sound session the evaluation of a fresh reading succeeds
-/

namespace EquipmentMonitoring.Backend

def Db.known (db : Db) (deviceId : Identifier) : Prop := db.hasDevice deviceId = true

def Db.stored (db : Db) (row : Telemetry) : Prop := row ∈ db.telemetry

/-- The alert tables are sound for the devices and telemetry there are. -/
abbrev Db.AlertsSound (db : Db) : Prop := db.alerts.Sound db.known db.stored

namespace Session

/-! ## The View -/

/-- The tables once every object is written. -/
def viewAlerts (s : Session) : AlertTables :=
  { s.db.alerts with
    alertStates := s.db.alerts.alertStates.upsertAll s.stateObjects.rows
    alertEpisodes := s.db.alerts.alertEpisodes.upsertAll s.episodeObjects.rows }

def view (s : Session) : Db := { s.db with alerts := s.viewAlerts }

@[simp] theorem view_start (db : Db) : (start db).view = db := rfl

/-- The session with everything written. -/
def written (s : Session) : Session := ⟨s.view, Table.empty, Table.empty, s.states⟩

@[simp] theorem viewAlerts_written (s : Session) : s.written.viewAlerts = s.viewAlerts := rfl

@[simp] theorem view_written (s : Session) : s.written.view = s.view := rfl

/-! ## Sound Sessions -/

/-- The view is sound, the rows name episodes of their own devices, and the objects of episodes are
resolutions of rows. Between an opening and the next write the rows alone are not sound: the new
episode is there, and no state names it. -/
structure Sound (s : Session) : Prop where
  view : s.view.AlertsSound
  owners : ∀ x ∈ s.db.alerts.alertStates, ∀ id, x.activeEpisodeId = some id →
    ∃ e ∈ s.db.alerts.alertEpisodes, e.id = id ∧ e.deviceId = x.deviceId
  resolutions : s.episodeObjects = Table.empty ∨ (s.db.AlertsSound ∧
    ∀ e' ∈ s.episodeObjects, ∃ e ∈ s.db.alerts.alertEpisodes, e.id = e'.id ∧
      e.deviceId = e'.deviceId ∧ e.openingTelemetryId = e'.openingTelemetryId ∧
      e.resolvedAt = none)

/-- A session without objects is sound when its rows are. -/
theorem sound_written {db : Db} (h : db.AlertsSound) {states : List Identifier} :
    (⟨db, Table.empty, Table.empty, states⟩ : Session).Sound := by
  refine ⟨h, fun x hx id hid => ?_, .inl rfl⟩
  obtain ⟨e, he, heid, hdevice, -⟩ := h.active x hx id hid
  exact ⟨e, he, heid, hdevice⟩

theorem Sound.written {s : Session} (h : s.Sound) : s.written.Sound := sound_written h.view

variable {s : Session}

theorem mem_view_of_stateObject {x : AlertState} (hx : x ∈ s.stateObjects) :
    x ∈ s.viewAlerts.alertStates := by
  have hfind : s.viewAlerts.alertStates.find? x.deviceId = some x := by
    rw [viewAlerts, Table.find?_upsertAll, Table.find?_eq_some.mpr ⟨hx, rfl⟩]
    rfl
  exact (Table.find?_eq_some.mp hfind).1

theorem mem_view_of_episodeObject {x : AlertEpisode} (hx : x ∈ s.episodeObjects) :
    x ∈ s.viewAlerts.alertEpisodes := by
  have hfind : s.viewAlerts.alertEpisodes.find? x.id = some x := by
    rw [viewAlerts, Table.find?_upsertAll, Table.find?_eq_some.mpr ⟨hx, rfl⟩]
    rfl
  exact (Table.find?_eq_some.mp hfind).1

/-- The row an object resolves; the rows are sound then. -/
theorem Sound.object_row (h : s.Sound) {x : AlertEpisode} (hx : x ∈ s.episodeObjects) :
    s.db.AlertsSound ∧ ∃ e ∈ s.db.alerts.alertEpisodes, e.id = x.id ∧ e.deviceId = x.deviceId ∧
      e.openingTelemetryId = x.openingTelemetryId ∧ e.resolvedAt = none := by
  rcases h.resolutions with hnone | ⟨hrows, hepisodes⟩
  · rw [hnone] at hx
    exact absurd hx (Table.not_mem_empty x)
  · exact ⟨hrows, hepisodes x hx⟩

/-- Rows and view have the same episodes, up to their resolution. -/
theorem Sound.row_of_view (h : s.Sound) {e : AlertEpisode}
    (he : e ∈ s.viewAlerts.alertEpisodes) :
    ∃ e₀ ∈ s.db.alerts.alertEpisodes, e₀.id = e.id ∧ e₀.deviceId = e.deviceId ∧
      e₀.openingTelemetryId = e.openingTelemetryId := by
  rcases Table.mem_upsertAll he with hrow | hobject
  · exact ⟨e, hrow, rfl, rfl, rfl⟩
  · obtain ⟨-, e₀, he₀, hid, hdevice, hopening, -⟩ := h.object_row hobject
    exact ⟨e₀, he₀, hid, hdevice, hopening⟩

theorem noOther_eq_true {ρ κ : Type} {key : ρ → κ} [DecidableEq κ] {t : Table key} {r : ρ}
    {clash : ρ → Bool} :
    noOther t r clash = true ↔ ∀ other ∈ t, clash other = true → key other = key r := by
  simp only [noOther, List.all_eq_true, Bool.or_eq_true, decide_eq_true_eq, Bool.not_eq_true',
    Table.mem_def]
  refine forall₂_congr fun other _ => ?_
  cases clash other <;> simp

/-- The owner of an active episode is the episode's device, before and after the writes. -/
theorem Sound.owner (h : s.Sound) {x : AlertState} {id : Nat}
    (hx : x ∈ s.db.alerts.alertStates ∨ x ∈ s.stateObjects) (hid : x.activeEpisodeId = some id) :
    ∃ e ∈ s.db.alerts.alertEpisodes, e.id = id ∧ e.deviceId = x.deviceId := by
  rcases hx with hrow | hobject
  · exact h.owners x hrow id hid
  · obtain ⟨e, he, hid, hdevice, -⟩ := h.view.active x (mem_view_of_stateObject hobject) id hid
    obtain ⟨e₀, he₀, hid₀, hdevice₀, -⟩ := h.row_of_view he
    exact ⟨e₀, he₀, hid₀.trans hid, hdevice₀.trans hdevice⟩

/-- Every state object passes the checks of its table, whatever has been written before it. -/
theorem Sound.checkState (h : s.Sound) {x : AlertState} (hx : x ∈ s.stateObjects)
    {u : Table AlertState.deviceId}
    (hu : ∀ y ∈ u, y ∈ s.db.alerts.alertStates ∨ y ∈ s.stateObjects.rows) :
    s.db.checkState u x = .ok () := by
  have hview := mem_view_of_stateObject hx
  have hbounded := h.view.bounded x hview
  simp only [Db.checkState, except_bind_eq_ok, ensure_eq_ok, exists_const, decide_eq_true_eq]
  refine ⟨hbounded.high, hbounded.recovery, ?_, h.view.devices x hview, ?_⟩
  · rw [noOther_eq_true]
    intro y hy hclash
    simp only [Bool.and_eq_true, Option.isSome_iff_exists, beq_iff_eq] at hclash
    obtain ⟨⟨id, hid⟩, hsame⟩ := hclash
    -- an episode has one owner, so two rows that name it are of one device
    obtain ⟨e, he, rfl, hdevice⟩ := h.owner (hu y hy) hid
    obtain ⟨e', he', hid', hdevice'⟩ := h.owner (.inr hx) (hsame ▸ hid)
    obtain rfl := Table.eq_of_key_eq he he' hid'.symm
    exact hdevice.symm.trans hdevice'
  · cases hid : x.activeEpisodeId with
    | none => rfl
    | some id =>
      obtain ⟨e, he, hid, -⟩ := h.owner (.inr hx) hid
      simp [Table.find?_eq_some.mpr ⟨he, hid⟩]

theorem hasTelemetry_of_stored {db : Db} {row : Telemetry} (h : db.stored row) :
    db.hasTelemetry row.id = true := by
  simp only [Db.hasTelemetry, List.any_eq_true, beq_iff_eq]
  exact ⟨row, h, rfl⟩

/-- What the foreign keys of a sound episode name is there. -/
theorem episode_keys {db : Db} {e : AlertEpisode} (h : e.Sound db.stored) :
    db.hasTelemetry e.openingTelemetryId = true ∧
      e.resolvingTelemetryId.all db.hasTelemetry = true := by
  obtain ⟨⟨row, hrow, hid, -⟩, hunresolved, hresolving⟩ := h
  refine ⟨hid ▸ hasTelemetry_of_stored hrow, ?_⟩
  cases hresolved : e.resolvedAt with
  | none => rw [hunresolved hresolved]; rfl
  | some t =>
    obtain ⟨-, row', hrow', hid', -⟩ := hresolving t hresolved
    rw [hid']
    exact hasTelemetry_of_stored hrow'

/-- Every episode object passes the checks of its table, whatever has been written before it. -/
theorem Sound.checkEpisode (h : s.Sound) {x : AlertEpisode} (hx : x ∈ s.episodeObjects)
    {u : Table AlertEpisode.id}
    (hu : ∀ y ∈ u, y ∈ s.db.alerts.alertEpisodes ∨ y ∈ s.episodeObjects.rows) :
    s.db.checkEpisode u x = .ok () := by
  have hview := mem_view_of_episodeObject hx
  have hepisode := h.view.episodes x hview
  obtain ⟨hopeningKey, hresolvingKey⟩ := episode_keys hepisode
  -- the row an object or a row of the table stands for
  have hrow : ∀ y ∈ u, ∃ y₀ ∈ s.db.alerts.alertEpisodes, y₀.id = y.id ∧ y₀.deviceId = y.deviceId ∧
      y₀.openingTelemetryId = y.openingTelemetryId ∧ (y.resolvedAt = none → y₀.resolvedAt = none) := by
    intro y hy
    rcases hu y hy with hy | hy
    · exact ⟨y, hy, rfl, rfl, rfl, id⟩
    · obtain ⟨-, y₀, hy₀, hid, hdevice, hopening, hopen⟩ := h.object_row hy
      exact ⟨y₀, hy₀, hid, hdevice, hopening, fun _ => hopen⟩
  obtain ⟨hrows, x₀, hx₀, hidx, hdevicex, hopeningx, hopenx⟩ := h.object_row hx
  simp only [Db.checkEpisode, except_bind_eq_ok, ensure_eq_ok, exists_const]
  refine ⟨?_, ?_, ?_, ?_, h.view.episode_known hview, hopeningKey, hresolvingKey⟩
  · cases hresolved : x.resolvedAt with
    | none => rfl
    | some t => simpa using (hepisode.resolving t hresolved).1.le
  · rw [noOther_eq_true]
    intro y hy hclash
    obtain ⟨y₀, hy₀, hidy, -, hopeningy, -⟩ := hrow y hy
    have hsame : y₀.openingTelemetryId = x₀.openingTelemetryId := by
      rw [hopeningy, hopeningx]
      simpa using hclash
    rw [← hidy, ← hidx, hrows.openings y₀ hy₀ x₀ hx₀ hsame]
  · rw [noOther_eq_true]
    intro y hy hclash
    simp only [Bool.and_eq_true, beq_iff_eq] at hclash
    have hne : y.resolvingTelemetryId ≠ none := Option.isSome_iff_ne_none.mp hclash.1
    -- a resolved row is hidden by no object, so it is in the view
    have hyview : y ∈ s.viewAlerts.alertEpisodes := by
      rcases hu y hy with hy | hy
      · have hfind : s.viewAlerts.alertEpisodes.find? y.id = some y := by
          rw [viewAlerts, Table.find?_upsertAll, Table.find?_eq_some.mpr ⟨hy, rfl⟩]
          cases hobject : s.episodeObjects.find? y.id with
          | none => rfl
          | some y' =>
            obtain ⟨hy', hid'⟩ := Table.find?_eq_some.mp hobject
            obtain ⟨-, y₀, hy₀, hid₀, -, -, hopen⟩ := h.object_row hy'
            obtain rfl := Table.eq_of_key_eq hy₀ hy (hid₀.trans hid')
            exact absurd ((hrows.episodes y₀ hy₀).unresolved hopen) hne
        exact (Table.find?_eq_some.mp hfind).1
      · exact mem_view_of_episodeObject hy
    rw [h.view.resolvings y hyview x hview hne hclash.2]
  · rw [noOther_eq_true]
    intro y hy hclash
    simp only [Bool.and_eq_true, Option.isNone_iff_eq_none, beq_iff_eq] at hclash
    obtain ⟨y₀, hy₀, hidy, hdevicey, -, hopeny⟩ := hrow y hy
    -- both are open in the rows, where the device's state names one
    obtain ⟨sx, hsx, hsx', hactivex⟩ := hrows.unresolved x₀ hx₀ hopenx
    obtain ⟨sy, hsy, hsy', hactivey⟩ := hrows.unresolved y₀ hy₀ (hopeny hclash.1.2)
    have hdevice : sy.deviceId = sx.deviceId := by
      rw [hsy', hsx', hdevicey, hdevicex, hclash.2]
    rw [Table.eq_of_key_eq hsy hsx hdevice, hactivex] at hactivey
    rw [← hidy, ← hidx, Option.some.inj hactivey]

/-- A flush of a sound session violates nothing, and writes the view. -/
theorem flush_ok (h : s.Sound) : s.flush = .ok s.written := by
  have hstates := Table.writeAll_ok_of fun x hx u hu => h.checkState hx hu
  have hepisodes := Table.writeAll_ok_of fun x hx u hu => h.checkEpisode hx hu
  simp only [flush]
  rw [hstates, hepisodes]
  rfl

end Session

/-! ## Evaluating a Reading -/

/-- The rows with the alert tables replaced. -/
def Db.withAlerts (db : Db) (alerts : AlertTables) : Db := { db with alerts := alerts }

/-- A session with nothing to write. -/
def Session.clean (db : Db) (states : List Identifier) : Session :=
  ⟨db, Table.empty, Table.empty, states⟩

section Evaluate

variable {db : Db} {states : List Identifier} {r : Reading} {state : AlertState}

@[simp] theorem Session.view_clean : (Session.clean db states).view = db := rfl

theorem Session.flush_clean_putState (h : db.AlertsSound) (hfits : db.alerts.Fits state)
    (hknown : db.known state.deviceId) :
    ((Session.clean db states).putState state).flush =
      .ok (Session.clean (db.withAlerts (db.alerts.putState state)) states) := by
  have hclean : (Session.clean db states).Sound := Session.sound_written h
  have hsound : ((Session.clean db states).putState state).Sound :=
    ⟨AlertTables.putState_sound h hfits hknown, hclean.owners, .inl rfl⟩
  exact Session.flush_ok hsound

/-- The row of an opening passes the checks when the device has no episode open. -/
theorem insertEpisode_ok (h : db.AlertsSound) (hr : db.alerts.Fresh db.known db.stored r)
    (hidle : ∀ e ∈ db.alerts.alertEpisodes, e.deviceId = r.deviceId → e.resolvedAt ≠ none) :
    db.insertEpisode r.deviceId r.eventAt r.telemetryId =
      .ok (db.alerts.nextEpisodeId, db.withAlerts (db.alerts.addEpisode r)) := by
  have hnew : ∀ e ∈ db.alerts.alertEpisodes, e.id ≠ (db.alerts.newEpisode r).id :=
    fun e he => (h.ids e he).ne
  have hstored : db.hasTelemetry r.telemetryId = true := by
    obtain ⟨row, hrow, rfl⟩ := hr.row
    exact Session.hasTelemetry_of_stored hrow
  -- Each constraint of the table is met: nobody opened with this reading, and the device is idle.
  have hcheck : db.checkEpisode db.alerts.alertEpisodes (db.alerts.newEpisode r) = .ok () := by
    simp only [Db.checkEpisode, except_bind_eq_ok, ensure_eq_ok, exists_const]
    refine ⟨rfl, ?_, ?_, ?_, hr.known, hstored, rfl⟩
    · rw [Session.noOther_eq_true]
      exact fun e he hclash => absurd (eq_of_beq hclash) (hr.opening e he)
    · rw [Session.noOther_eq_true]
      intro e he hclash
      obtain ⟨hsome, hnone⟩ := Bool.and_eq_true_iff.mp hclash
      rw [eq_of_beq hnone] at hsome
      exact absurd hsome (by simp [AlertTables.newEpisode])
    · rw [Session.noOther_eq_true]
      intro e he hclash
      simp only [Bool.and_eq_true, Option.isNone_iff_eq_none, beq_iff_eq] at hclash
      exact absurd hclash.1.2 (hidle e he hclash.2)
  have hinsert : db.alerts.alertEpisodes.insert (db.alerts.newEpisode r) =
      some (db.alerts.alertEpisodes.upsert (db.alerts.newEpisode r)) :=
    Table.insert_eq_some.mpr ⟨hnew, Table.upsert_of_fresh hnew⟩
  simp only [AlertTables.newEpisode] at hcheck hinsert
  simp only [Db.insertEpisode, hcheck, hinsert]
  rfl

variable (h : db.AlertsSound) (hr : db.alerts.Fresh db.known db.stored r)
  (hfits : db.alerts.Fits state) (hdevice : state.deviceId = r.deviceId)
  (hlast : state.lastEventAt = r.eventAt)

include h hr hfits hdevice hlast

theorem openEpisode_ok (hidle : state.activeEpisodeId = none) (hhigh : isHigh r.value = true) :
    ∃ s, openEpisode (Session.clean db states) state r.eventAt r.telemetryId = .ok s ∧ s.Sound ∧
      s.view = db.withAlerts (db.alerts.openBy state r) ∧ s.states = states := by
  have hknown : db.known state.deviceId := hdevice ▸ hr.known
  have hfits' := hfits.setHigh hidle (Nat.zero_le 2)
  have hput : (db.withAlerts (db.alerts.putState { state with highStreak := 0 })).AlertsSound :=
    AlertTables.putState_sound h hfits' hknown
  have hinsert := insertEpisode_ok hput ⟨hr.row, hr.known, hr.opening, hr.resolving⟩
    fun e he howner hopen => by
      have := hfits.unresolved e he (howner.trans hdevice.symm) hopen
      rw [hidle] at this
      exact absurd this (by simp)
  rw [← hdevice] at hinsert
  refine ⟨(Session.clean (db.withAlerts ((db.alerts.putState { state with highStreak := 0 }).addEpisode
    r)) states).putState
      { state with highStreak := 0, activeEpisodeId := some db.alerts.nextEpisodeId },
    ?_, ⟨?_, ?_, .inl rfl⟩, congrArg db.withAlerts (AlertTables.openBy_eq ..), rfl⟩
  · refine except_bind_eq_ok.mpr ⟨_, Session.flush_clean_putState h hfits' hknown, ?_⟩
    exact except_bind_eq_ok.mpr ⟨_, hinsert, rfl⟩
  · have hview := AlertTables.openBy_sound h hr hfits hdevice hlast hidle hhigh
    rwa [← AlertTables.openBy_eq] at hview
  · -- the states written so far name episodes that were there before
    intro x hx id hid
    obtain ⟨e, he, heid, howner, -⟩ := hput.active x hx id hid
    have hne : e.id ≠ db.alerts.nextEpisodeId := (h.ids e he).ne
    exact ⟨e, Table.mem_upsert.mpr (.inr ⟨he, hne⟩), heid, howner⟩

theorem resolveEpisode_ok {e : AlertEpisode} (he : e ∈ db.alerts.alertEpisodes)
    (hactive : state.activeEpisodeId = some e.id) (hrecovered : isRecovered r.value = true) :
    ∃ s, resolveEpisode (Session.clean db states) state e.id r.eventAt r.telemetryId = .ok s ∧
      s.Sound ∧ s.view = db.withAlerts (db.alerts.resolveBy state e r) ∧ s.states = states := by
  have hknown : db.known state.deviceId := hdevice ▸ hr.known
  have hfits' := hfits.setRecovery hactive (Nat.zero_le 2)
  -- The lookup autoflushes the row with its cleared streak before the episode is read.
  have hput : (db.withAlerts (db.alerts.putState { state with recoveryStreak := 0 })).AlertsSound :=
    AlertTables.putState_sound h hfits' hknown
  have hopen : e.resolvedAt = none := by
    obtain ⟨e', he', hid, -, hopen⟩ := hfits.active _ hactive
    rwa [Table.eq_of_key_eq he' he hid] at hopen
  have hget : (Session.clean (db.withAlerts (db.alerts.putState { state with recoveryStreak := 0 }))
      states).getEpisode e.id = some e := Table.find?_eq_some.mpr ⟨he, rfl⟩
  refine ⟨((Session.clean (db.withAlerts (db.alerts.putState { state with recoveryStreak := 0 }))
      states).putEpisode (AlertTables.resolvedBy e r)).putState
        { state with recoveryStreak := 0, activeEpisodeId := none },
    ?_, ⟨?_, ?_, .inr ⟨hput, ?_⟩⟩, congrArg db.withAlerts (AlertTables.resolveBy_eq ..), rfl⟩
  · refine except_bind_eq_ok.mpr ⟨_, Session.flush_clean_putState h hfits' hknown, ?_⟩
    rw [hget]
    rfl
  · have hview := AlertTables.resolveBy_sound h hr hfits hdevice hlast he hactive hrecovered
    rwa [← AlertTables.resolveBy_eq] at hview
  · intro x hx id hid
    obtain ⟨e, he, heid, howner, -⟩ := hput.active x hx id hid
    exact ⟨e, he, heid, howner⟩
  · intro e' he'
    have hself : e' = AlertTables.resolvedBy e r := by
      rcases Table.mem_upsert.mp he' with hself | ⟨hnone, -⟩
      · exact hself
      · exact absurd hnone (Table.not_mem_empty e')
    subst hself
    exact ⟨e, he, rfl, rfl, rfl, hopen⟩

/-- The candidate advances as its row does. -/
theorem advanceState_ok (states : List Identifier) {value : Decimal}
    (hvalue : value.toRat = r.value.toRat) :
    ∃ s, advanceState (Session.clean db states) state value r.eventAt r.telemetryId = .ok s ∧
      s.Sound ∧ s.view = db.withAlerts (db.alerts.advanceRow state r) ∧ s.states = states := by
  have hknown : db.known state.deviceId := hdevice ▸ hr.known
  have hclean : (Session.clean db states).Sound := Session.sound_written h
  have hhigh : isHigh value = isHigh r.value := by
    rw [Bool.eq_iff_iff, isHigh_iff, isHigh_iff, hvalue]
  have hrecovered : isRecovered value = isRecovered r.value := by
    rw [Bool.eq_iff_iff, isRecovered_iff, isRecovered_iff, hvalue]
  unfold advanceState AlertTables.advanceRow
  rw [hhigh, hrecovered]
  -- the mode of the row decides which streak is counted, in the session as in the tables
  cases hmode : state.activeEpisodeId with
  | none =>
    simp only
    split
    · next hcount =>
      exact openEpisode_ok h hr hfits hdevice hlast hmode (counts_of_countStreak hcount)
    · next hcount =>
      have hput := hfits.setHigh hmode (countStreak_le hfits.bounded.high hcount)
      rw [hmode] at hput
      exact ⟨_, rfl, ⟨AlertTables.putState_sound h hput hknown, hclean.owners, .inl rfl⟩, rfl, rfl⟩
  | some id =>
    simp only
    split
    · next hcount =>
      obtain ⟨e, he, rfl, -⟩ := hfits.active id hmode
      rw [Table.find?_eq_some.mpr ⟨he, rfl⟩]
      exact resolveEpisode_ok h hr hfits hdevice hlast he hmode (counts_of_countStreak hcount)
    · next hcount =>
      have hput := hfits.setRecovery hmode (countStreak_le hfits.bounded.recovery hcount)
      rw [hmode] at hput
      exact ⟨_, rfl, ⟨AlertTables.putState_sound h hput hknown, hclean.owners, .inl rfl⟩, rfl, rfl⟩

end Evaluate

/-- Every device in `states` has a row or an object. -/
def Session.Tracked (s : Session) : Prop :=
  ∀ d ∈ s.states, ∃ state ∈ s.viewAlerts.alertStates, state.deviceId = d

section Obtain

variable {db : Db} {states : List Identifier} {r : Reading}

/-- What is obtained for a reading is its candidate, before the event time is set. -/
theorem obtainState_clean (htracked : (Session.clean db states).Tracked) :
    (obtainState (Session.clean db states) r.deviceId r.eventAt = none ∧
      db.alerts.candidate r = none) ∨
    ∃ state states', obtainState (Session.clean db states) r.deviceId r.eventAt =
        some (state, Session.clean db states') ∧
      db.alerts.candidate r = some { state with lastEventAt := r.eventAt } ∧
      ∀ d ∈ states', d ∈ states ∨ d = r.deviceId := by
  have hget : (Session.clean db states).getState r.deviceId =
      db.alerts.alertStates.find? r.deviceId := rfl
  have hstates : (Session.clean db states).states = states := rfl
  unfold obtainState AlertTables.candidate
  rw [hget, hstates]
  -- a device seen before in this batch is in `states`, and the database is not asked
  by_cases hmem : r.deviceId ∈ states
  · obtain ⟨state, hstate, hdevice⟩ := htracked _ hmem
    have hfind : db.alerts.alertStates.find? r.deviceId = some state :=
      Table.find?_eq_some.mpr ⟨hstate, hdevice⟩
    rw [if_pos hmem, hfind]
    simp only
    split
    · exact .inl ⟨rfl, rfl⟩
    · exact .inr ⟨state, states, rfl, rfl, fun d hd => .inl hd⟩
  · rw [if_neg hmem]
    cases db.alerts.alertStates.find? r.deviceId with
    | none =>
      exact .inr ⟨_, _, rfl, rfl, fun d hd => (List.mem_cons.mp hd).symm⟩
    | some state =>
      simp only
      split
      · exact .inl ⟨rfl, rfl⟩
      · exact .inr ⟨state, _, rfl, rfl, fun d hd => (List.mem_cons.mp hd).symm⟩

end Obtain

/-- In a sound session the evaluation of a fresh reading violates nothing; the view advances. -/
theorem evaluate_ok {db : Db} {states : List Identifier} {item : TelemetryEvent} {row : Telemetry}
    (h : db.AlertsSound) (htracked : (Session.clean db states).Tracked)
    (hr : db.alerts.Fresh db.known db.stored row.reading) (hdevice : row.deviceId = item.deviceId)
    (hevent : row.eventAt = item.eventAt) (hvalue : row.value.toRat = item.value.toRat) :
    ∃ s, evaluateAcceptedReading (Session.clean db states) item row.id row.backendReceivedAt =
        .ok s ∧ s.Sound ∧ s.view = db.withAlerts (db.alerts.advance row.reading) ∧ s.Tracked := by
  have hclean : (Session.clean db states).Sound := Session.sound_written h
  -- A stale or out-of-order reading leaves session and tables as they are.
  have hunchanged : ∃ s, Except.ok (ε := DatabaseError) (Session.clean db states) = .ok s ∧ s.Sound ∧
      s.view = db.withAlerts db.alerts ∧ s.Tracked := ⟨_, rfl, hclean, rfl, htracked⟩
  have hfresh : isFresh row.backendReceivedAt item.eventAt =
      isFresh row.reading.receivedAt row.reading.eventAt := by rw [← hevent]; rfl
  unfold evaluateAcceptedReading AlertTables.advance
  rw [hfresh]
  cases isFresh row.reading.receivedAt row.reading.eventAt with
  | false => exact hunchanged
  | true =>
    simp only [Bool.not_true, Bool.false_eq_true, if_false, if_true]
    rw [← hdevice, ← hevent]
    rcases obtainState_clean (r := row.reading) htracked with
      ⟨hobtain, hc⟩ | ⟨state, states', hobtain, hc, hstates'⟩
    · rw [show obtainState _ row.deviceId row.eventAt = none from hobtain, hc]
      exact hunchanged
    · rw [show obtainState _ row.deviceId row.eventAt = _ from hobtain, hc]
      obtain ⟨hdevice', hlast, hfits⟩ := AlertTables.candidate_fits h hc
      obtain ⟨s, hs, hsound, hview, hsame⟩ :=
        advanceState_ok h hr hfits hdevice' hlast states' hvalue.symm
      refine ⟨s, hs, hsound, hview, fun d hd => ?_⟩
      obtain ⟨x, hrows, hx, -⟩ := AlertTables.advanceRow_states (r := row.reading) hfits
      -- The rows tracked before stay tracked: advancing writes one row and deletes none.
      have hviewStates : s.viewAlerts.alertStates = db.alerts.alertStates.upsert x :=
        (congrArg (fun db => db.alerts.alertStates) hview).trans hrows
      rw [hviewStates]
      by_cases hself : x.deviceId = d
      · exact ⟨x, Table.mem_upsert.mpr (.inl rfl), hself⟩
      · rcases hstates' d (hsame ▸ hd) with hd | hd
        · obtain ⟨y, hy, rfl⟩ := htracked d hd
          exact ⟨y, Table.mem_upsert.mpr (.inr ⟨hy, fun h => hself h.symm⟩), rfl⟩
        · exact absurd ((hx.trans hdevice').trans hd.symm) hself

end EquipmentMonitoring.Backend
