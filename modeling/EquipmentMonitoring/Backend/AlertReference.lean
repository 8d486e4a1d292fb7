import EquipmentMonitoring.Backend.AlertStorage

/-!
# The Documented Alert Rule

The rule of `temperature-alert-flow.md` as a run over the readings of one device, without tables,
sessions and batches, and the proof that the alert rows are what the rule says.

## Layers

- `Reference`, `Reference.step`, `Reference.run`: the rule
- `AlertTables.stateOf`, `AlertTables.episodesOf`: the rows of one device, without surrogate keys
- `advance_represents`: a reading advances the rows as the rule does

## Key Results

- `alerts_refine_reference`: after any run the rows of every device are those of its reference run
- `Reference.run_same`: the reference run does not depend on the ids of telemetry rows
-/

namespace EquipmentMonitoring.Backend

/-! ## The Rule -/

/-- Whether an episode is active, and how many readings in a row speak for a change. -/
inductive Mode where
  | normal (count : Nat)
  | alerting (opening : Reading) (count : Nat)

/-- One device, by its readings so far. -/
inductive Reference where
  /-- No reading was evaluated yet. -/
  | unseen
  | seen (lastEventAt : Time) (mode : Mode) (resolved : List (Reading × Reading))

namespace Reference

/-- Not older than five minutes, not more than one minute ahead. -/
def Timely (r : Reading) : Prop :=
  r.receivedAt - microseconds (5 * 60) ≤ r.eventAt ∧ r.eventAt ≤ r.receivedAt + microseconds 60

instance (r : Reading) : Decidable (Timely r) :=
  inferInstanceAs (Decidable (_ ∧ _))

/-- An evaluated reading: the third one in a row opens or resolves an episode. -/
def evaluate (r : Reading) : Mode → List (Reading × Reading) → Reference
  | .normal count, resolved =>
    if r.value.toRat ≤ 30 then .seen r.eventAt (.normal 0) resolved
    else if count + 1 = 3 then .seen r.eventAt (.alerting r 0) resolved
    else .seen r.eventAt (.normal (count + 1)) resolved
  | .alerting opening count, resolved =>
    if 28 ≤ r.value.toRat then .seen r.eventAt (.alerting opening 0) resolved
    else if count + 1 = 3 then .seen r.eventAt (.normal 0) (resolved ++ [(opening, r)])
    else .seen r.eventAt (.alerting opening (count + 1)) resolved

/-- A reading of the device; it is skipped unless it is timely and later than the last one. -/
def step (ref : Reference) (r : Reading) : Reference :=
  if Timely r then
    match ref with
    | .unseen => evaluate r (.normal 0) []
    | .seen lastEventAt mode resolved =>
      if r.eventAt ≤ lastEventAt then .seen lastEventAt mode resolved else evaluate r mode resolved
  else ref

/-- The reference run of a device over the readings of all devices. -/
def run (d : Identifier) (readings : List Reading) : Reference :=
  (readings.filter fun r => decide (r.deviceId = d)).foldl step .unseen

theorem run_append (d : Identifier) (readings : List Reading) (r : Reading) :
    run d (readings ++ [r]) = if r.deviceId = d then (run d readings).step r else run d readings := by
  unfold run
  rw [List.filter_append, List.foldl_append]
  by_cases h : r.deviceId = d
  · simp [h]
  · simp [h]

end Reference

/-! ## The Rows of a Device -/

/-- A row of `alert_states`, which names its active episode by the opening telemetry row. -/
structure DeviceState where
  lastEventAt : Time
  highStreak : Nat
  recoveryStreak : Nat
  activeOpening : Option Nat

/-- A row of `alert_episodes`. -/
structure DeviceEpisode where
  openedAt : Time
  openingTelemetryId : Nat
  resolvedAt : Option Time
  resolvingTelemetryId : Option Nat

def AlertEpisode.device (e : AlertEpisode) : DeviceEpisode :=
  ⟨e.openedAt, e.openingTelemetryId, e.resolvedAt, e.resolvingTelemetryId⟩

/-- The opening telemetry row of an episode. -/
def AlertTables.openingOf (a : AlertTables) (id : Nat) : Option Nat :=
  (a.alertEpisodes.find? id).map AlertEpisode.openingTelemetryId

def AlertTables.stateOf (a : AlertTables) (d : Identifier) : Option DeviceState :=
  (a.alertStates.find? d).map fun s =>
    ⟨s.lastEventAt, s.highStreak, s.recoveryStreak, s.activeEpisodeId.bind a.openingOf⟩

/-- The episodes of a device, oldest first. -/
def AlertTables.deviceEpisodes (a : AlertTables) (d : Identifier) : List AlertEpisode :=
  a.alertEpisodes.rows.filter fun e => decide (e.deviceId = d)

def AlertTables.episodesOf (a : AlertTables) (d : Identifier) : List DeviceEpisode :=
  (a.deviceEpisodes d).map AlertEpisode.device

def DeviceEpisode.active (opening : Reading) : DeviceEpisode :=
  ⟨opening.eventAt, opening.telemetryId, none, none⟩

def DeviceEpisode.past (pair : Reading × Reading) : DeviceEpisode :=
  ⟨pair.1.eventAt, pair.1.telemetryId, some pair.2.eventAt, some pair.2.telemetryId⟩

/-- The state row the reference run stands for. -/
def Reference.stateRow : Reference → Option DeviceState
  | .unseen => none
  | .seen lastEventAt (.normal count) _ => some ⟨lastEventAt, count, 0, none⟩
  | .seen lastEventAt (.alerting opening count) _ =>
    some ⟨lastEventAt, 0, count, some opening.telemetryId⟩

/-- The episode rows the reference run stands for. -/
def Reference.episodeRows : Reference → List DeviceEpisode
  | .unseen => []
  | .seen _ (.normal _) resolved => resolved.map DeviceEpisode.past
  | .seen _ (.alerting opening _) resolved =>
    resolved.map DeviceEpisode.past ++ [DeviceEpisode.active opening]

/-- The rows of a device are those of the reference. -/
structure Represents (a : AlertTables) (d : Identifier) (ref : Reference) : Prop where
  state : a.stateOf d = ref.stateRow
  episodes : a.episodesOf d = ref.episodeRows

theorem represents_unseen {a : AlertTables} (hstates : a.alertStates = Table.empty)
    (hepisodes : a.alertEpisodes = Table.empty) (d : Identifier) : Represents a d .unseen := by
  constructor
  · rw [AlertTables.stateOf, hstates]; rfl
  · rw [AlertTables.episodesOf, AlertTables.deviceEpisodes, hepisodes]; rfl

/-! ## Rows of Other Devices -/

section Rows

variable {known : Identifier → Prop} {stored : Telemetry → Prop} {a a' : AlertTables}
  {state : AlertState} {r : Reading} {e : AlertEpisode} {d : Identifier}

theorem stateOf_putState_other (h : state.deviceId ≠ d) : (a.putState state).stateOf d = a.stateOf d := by
  simp only [AlertTables.stateOf, AlertTables.putState, Table.find?_upsert, if_neg h]
  rfl

theorem stateOf_putState_self (h : state.deviceId = d) :
    (a.putState state).stateOf d = some ⟨state.lastEventAt, state.highStreak, state.recoveryStreak,
      state.activeEpisodeId.bind a.openingOf⟩ := by
  simp only [AlertTables.stateOf, AlertTables.putState, Table.find?_upsert, if_pos h]
  rfl

/-- A new episode is the last of its device, and of no other. -/
theorem deviceEpisodes_add (h : a.Sound known stored) :
    (a.addEpisode r).deviceEpisodes d =
      if r.deviceId = d then a.deviceEpisodes d ++ [a.newEpisode r] else a.deviceEpisodes d := by
  have hfresh : ∀ e ∈ a.alertEpisodes, e.id ≠ (a.newEpisode r).id := fun e he => (h.ids e he).ne
  simp only [AlertTables.deviceEpisodes, AlertTables.addEpisode, Table.upsert_of_fresh hfresh,
    List.filter_append]
  by_cases hd : r.deviceId = d
  · simp [AlertTables.newEpisode, hd]
  · simp [AlertTables.newEpisode, hd]

/-- A replaced episode stays where it was. -/
theorem deviceEpisodes_put (e' : AlertEpisode) (he : e ∈ a.alertEpisodes) (hid : e'.id = e.id)
    (hdevice : e'.deviceId = e.deviceId) :
    (a.putEpisode e').deviceEpisodes d =
      (a.deviceEpisodes d).map fun x => if x.id = e.id then e' else x := by
  simp only [AlertTables.deviceEpisodes, AlertTables.putEpisode, Table.upsert_of_mem he hid.symm,
    Table.replace, hid, List.filter_map]
  refine congrArg (List.map _) (List.filter_congr fun x hx => ?_)
  simp only [Function.comp_apply]
  split
  · next hsame =>
    -- the replaced row is the episode itself
    obtain rfl := Table.eq_of_key_eq hx he hsame
    rw [hdevice]
  · rfl

theorem openingOf_add {id : Nat} (hid : id < a.nextEpisodeId) :
    (a.addEpisode r).openingOf id = a.openingOf id := by
  have hne : (a.newEpisode r).id ≠ id := hid.ne'
  simp only [AlertTables.openingOf, AlertTables.addEpisode, Table.find?_upsert, if_neg hne]

theorem openingOf_new : (a.addEpisode r).openingOf a.nextEpisodeId = some r.telemetryId := by
  have hid : (a.newEpisode r).id = a.nextEpisodeId := rfl
  simp only [AlertTables.openingOf, AlertTables.addEpisode, Table.find?_upsert, if_pos hid]
  rfl

theorem openingOf_resolve (he : e ∈ a.alertEpisodes) (id : Nat) :
    (a.putEpisode (AlertTables.resolvedBy e r)).openingOf id = a.openingOf id := by
  simp only [AlertTables.openingOf, AlertTables.putEpisode, Table.find?_upsert]
  split
  · next hid =>
    rw [Table.find?_eq_some.mpr ⟨he, hid⟩]
    rfl
  · rfl

/-- The states stand for the same when what they name opens with the same rows. -/
theorem stateOf_congr (hstates : a'.alertStates = a.alertStates)
    (hopening : ∀ s ∈ a.alertStates, ∀ id, s.activeEpisodeId = some id →
      a'.openingOf id = a.openingOf id) : a'.stateOf d = a.stateOf d := by
  rw [AlertTables.stateOf, AlertTables.stateOf, hstates]
  cases hfind : a.alertStates.find? d with
  | none => rfl
  | some s =>
    have hmem : s ∈ a.alertStates := (Table.find?_eq_some.mp hfind).1
    -- The state shows its active episode by its opening alone.
    have hbind : s.activeEpisodeId.bind a'.openingOf = s.activeEpisodeId.bind a.openingOf := by
      cases hid : s.activeEpisodeId with
      | none => rfl
      | some id => exact hopening s hmem id hid
    rw [Option.map_some, Option.map_some, hbind]

theorem stateOf_add (h : a.Sound known stored) : (a.addEpisode r).stateOf d = a.stateOf d := by
  refine stateOf_congr rfl fun s hs id hid => openingOf_add ?_
  obtain ⟨e, he, rfl, -⟩ := h.active s hs id hid
  exact h.ids e he

theorem stateOf_resolve (he : e ∈ a.alertEpisodes) :
    (a.putEpisode (AlertTables.resolvedBy e r)).stateOf d = a.stateOf d :=
  stateOf_congr rfl fun _ _ id _ => openingOf_resolve he id

/-- Rows of another device stay as they are. -/
theorem advanceRow_other (h : a.Sound known stored) (hfits : a.Fits state) (hne : state.deviceId ≠ d)
    (hdevice : state.deviceId = r.deviceId) {ref : Reference} (href : Represents a d ref) :
    Represents (a.advanceRow state r) d ref := by
  have hput : ∀ s : AlertState, s.deviceId = state.deviceId → Represents (a.putState s) d ref :=
    fun s hs => ⟨(stateOf_putState_other (hs ▸ hne)).trans href.state, href.episodes⟩
  unfold AlertTables.advanceRow
  split
  · simp only
    split
    · -- an episode of the reading's device is opened
      have hopened : (a.openBy state r).stateOf d = (a.addEpisode r).stateOf d :=
        stateOf_putState_other hne
      refine ⟨hopened.trans ((stateOf_add h).trans href.state), ?_⟩
      refine Eq.trans (congrArg (List.map _) ?_) href.episodes
      exact (deviceEpisodes_add h).trans (if_neg (hdevice ▸ hne))
    · exact hput _ rfl
  · next id hactive =>
    simp only
    split
    · -- an episode of the reading's device is resolved
      obtain ⟨e, he, rfl, howner, -⟩ := hfits.active id hactive
      rw [Table.find?_eq_some.mpr ⟨he, rfl⟩]
      have hresolved : (a.resolveBy state e r).stateOf d =
          (a.putEpisode (AlertTables.resolvedBy e r)).stateOf d := stateOf_putState_other hne
      refine ⟨hresolved.trans ((stateOf_resolve he).trans href.state), ?_⟩
      refine Eq.trans (congrArg (List.map _) ?_) href.episodes
      have hput : (a.resolveBy state e r).deviceEpisodes d = _ :=
        deviceEpisodes_put (AlertTables.resolvedBy e r) he rfl rfl
      refine hput.trans ?_
      rw [List.map_congr_left fun x hx => if_neg fun hid => ?_, List.map_id']
      obtain ⟨hx, hxd⟩ := List.mem_filter.mp hx
      obtain rfl := Table.eq_of_key_eq hx he hid
      exact hne (howner.symm.trans (of_decide_eq_true hxd))
    · exact hput _ rfl

/-! ## Rows of the Reading's Device -/

/-- While no episode is active, the candidate's row after the reading is that of the rule. -/
theorem evaluate_normal (state : AlertState) (h : a.Sound known stored)
    (hdevice : state.deviceId = r.deviceId)
    (hlast : state.lastEventAt = r.eventAt) {resolved : List (Reading × Reading)}
    (hidle : state.activeEpisodeId = none) (hrecovery : state.recoveryStreak = 0)
    (hepisodes : a.episodesOf r.deviceId = resolved.map DeviceEpisode.past) :
    Represents (a.advanceRow state r) r.deviceId
      (Reference.evaluate r (.normal state.highStreak) resolved) := by
  -- Whatever the streak becomes, writing it back shows the device in normal mode with it.
  have hput : ∀ n, Represents (a.putState { state with highStreak := n }) r.deviceId
      (.seen r.eventAt (.normal n) resolved) := by
    intro n
    have hstate : (a.putState { state with highStreak := n }).stateOf r.deviceId = _ :=
      stateOf_putState_self hdevice
    refine ⟨hstate.trans ?_, hepisodes⟩
    simp only [hlast, hrecovery, hidle]
    rfl
  unfold AlertTables.advanceRow Reference.evaluate
  rw [hidle]
  simp only
  by_cases hvalue : r.value.toRat ≤ 30
  · have hlow : isHigh r.value = false := by
      rw [Bool.eq_false_iff, ne_eq, isHigh_iff, not_lt]
      exact hvalue
    rw [if_pos hvalue, hlow]
    exact hidle ▸ hput 0
  · have hhigh : isHigh r.value = true := isHigh_iff.mpr (not_le.mp hvalue)
    rw [if_neg hvalue, hhigh]
    simp only [countStreak, if_true, consecutiveReadings]
    split
    · -- the third reading opens an episode
      constructor
      · have hstate : (a.openBy state r).stateOf r.deviceId = _ := stateOf_putState_self hdevice
        refine hstate.trans ?_
        simp only [hlast, hrecovery, Option.bind_some, openingOf_new]
        rfl
      · refine (congrArg (List.map _) (deviceEpisodes_add h)).trans ?_
        rw [if_pos rfl, List.map_append]
        exact congrArg (· ++ _) hepisodes
    · exact hidle ▸ hput _

/-- The last episode of a device is the active one, and the others are past. -/
theorem deviceEpisodes_active (h : a.Sound known stored) {opening : Reading}
    {resolved : List (Reading × Reading)} (he : e ∈ a.alertEpisodes) (hopen : e.resolvedAt = none)
    (hepisodes : a.episodesOf e.deviceId =
      resolved.map DeviceEpisode.past ++ [DeviceEpisode.active opening]) :
    ∃ past, a.deviceEpisodes e.deviceId = past ++ [e] ∧ (∀ x ∈ past, x.id ≠ e.id) ∧
      past.map AlertEpisode.device = resolved.map DeviceEpisode.past ∧
      e.device = DeviceEpisode.active opening := by
  obtain ⟨past, tail, hsplit, hpast, htail⟩ := List.map_eq_append_iff.mp hepisodes
  obtain ⟨x, rest, rfl, hx, hrest⟩ := List.map_eq_cons_iff.mp htail
  obtain rfl := List.map_eq_nil_iff.mp hrest
  have hmem : ∀ y ∈ past ++ [x], y ∈ a.alertEpisodes ∧ y.deviceId = e.deviceId := by
    intro y hy
    obtain ⟨hy, hdevice⟩ := List.mem_filter.mp (hsplit.symm ▸ hy : y ∈ a.deviceEpisodes e.deviceId)
    exact ⟨hy, of_decide_eq_true hdevice⟩
  obtain ⟨hx', hxdevice⟩ := hmem x (List.mem_append_right _ (List.mem_singleton_self x))
  -- the last one is unresolved, and a device has one such episode
  have hxopen : x.resolvedAt = none := congrArg DeviceEpisode.resolvedAt hx
  obtain ⟨s, hs, howner, hactive⟩ := h.unresolved e he hopen
  obtain ⟨s', hs', howner', hactive'⟩ := h.unresolved x hx' hxopen
  obtain rfl := Table.eq_of_key_eq hs hs' (howner.trans (hxdevice.symm.trans howner'.symm))
  obtain rfl := Table.eq_of_key_eq he hx' (Option.some.inj (hactive.symm.trans hactive'))
  refine ⟨past, hsplit, fun y hy hid => ?_, hpast, hx⟩
  -- an episode before it is resolved
  obtain rfl := Table.eq_of_key_eq (hmem y (List.mem_append_left _ hy)).1 he hid
  have hdevice : y.device ∈ resolved.map DeviceEpisode.past :=
    hpast ▸ List.mem_map_of_mem hy
  obtain ⟨pair, -, hpair⟩ := List.mem_map.mp hdevice
  have hresolved : some pair.2.eventAt = y.resolvedAt := congrArg DeviceEpisode.resolvedAt hpair
  rw [hopen] at hresolved
  exact absurd hresolved (by simp)

/-- While an episode is active, the candidate's row after the reading is that of the rule. -/
theorem evaluate_alerting (state : AlertState) (h : a.Sound known stored)
    (hdevice : state.deviceId = r.deviceId)
    (hlast : state.lastEventAt = r.eventAt) {opening : Reading} {resolved : List (Reading × Reading)}
    (he : e ∈ a.alertEpisodes) (hactive : state.activeEpisodeId = some e.id)
    (howner : e.deviceId = r.deviceId) (hopen : e.resolvedAt = none) (hhigh : state.highStreak = 0)
    (hepisodes : a.episodesOf r.deviceId =
      resolved.map DeviceEpisode.past ++ [DeviceEpisode.active opening]) :
    Represents (a.advanceRow state r) r.deviceId
      (Reference.evaluate r (.alerting opening state.recoveryStreak) resolved) := by
  obtain ⟨past, hsplit, hne, hpast, hlastEpisode⟩ :=
    deviceEpisodes_active h he hopen (howner ▸ hepisodes)
  have hopening : e.openingTelemetryId = opening.telemetryId :=
    congrArg DeviceEpisode.openingTelemetryId hlastEpisode
  have hopened : e.openedAt = opening.eventAt := congrArg DeviceEpisode.openedAt hlastEpisode
  have hfind : a.alertEpisodes.find? e.id = some e := Table.find?_eq_some.mpr ⟨he, rfl⟩
  -- Whatever the streak becomes, writing it back keeps the device in its episode.
  have hput : ∀ n, Represents (a.putState { state with recoveryStreak := n }) r.deviceId
      (.seen r.eventAt (.alerting opening n) resolved) := by
    intro n
    have hstate : (a.putState { state with recoveryStreak := n }).stateOf r.deviceId = _ :=
      stateOf_putState_self hdevice
    refine ⟨hstate.trans ?_, hepisodes⟩
    simp only [hlast, hhigh, hactive, Option.bind_some, AlertTables.openingOf, hfind, Option.map_some,
      hopening]
    rfl
  unfold AlertTables.advanceRow Reference.evaluate
  rw [hactive]
  simp only
  by_cases hvalue : 28 ≤ r.value.toRat
  · have hwarm : isRecovered r.value = false := by
      rw [Bool.eq_false_iff, ne_eq, isRecovered_iff, not_lt]
      exact hvalue
    rw [if_pos hvalue, hwarm]
    exact hactive ▸ hput 0
  · have hcool : isRecovered r.value = true := isRecovered_iff.mpr (not_le.mp hvalue)
    rw [if_neg hvalue, hcool]
    simp only [countStreak, if_true, consecutiveReadings]
    split
    · -- the third reading resolves the episode
      rw [hfind]
      constructor
      · have hstate : (a.resolveBy state e r).stateOf r.deviceId = _ := stateOf_putState_self hdevice
        refine hstate.trans ?_
        simp only [hlast, hhigh]
        rfl
      · have hrows : (a.resolveBy state e r).deviceEpisodes r.deviceId = _ :=
          deviceEpisodes_put (AlertTables.resolvedBy e r) he rfl rfl
        refine (congrArg (List.map AlertEpisode.device) hrows).trans ?_
        have hkept : past.map (fun x => if x.id = e.id then AlertTables.resolvedBy e r else x) = past := by
          rw [List.map_congr_left fun x hx => if_neg (hne x hx), List.map_id']
        rw [← howner, hsplit, List.map_append, hkept, List.map_append, hpast]
        simp only [List.map_cons, List.map_nil, if_true, AlertTables.resolvedBy, AlertEpisode.device,
          hopened, hopening, Reference.episodeRows, List.map_append, DeviceEpisode.past]
    · exact hactive ▸ hput _

/-! ## Readings -/

theorem isFresh_iff : isFresh r.receivedAt r.eventAt = true ↔ Reference.Timely r := by
  rw [isFresh, Bool.and_eq_true, decide_eq_true_eq, decide_eq_true_eq]
  exact Iff.rfl

/-- A state row the reference stands for. -/
theorem exists_state {row : DeviceState} (h : a.stateOf d = some row) :
    ∃ s, a.alertStates.find? d = some s ∧ s.lastEventAt = row.lastEventAt ∧
      s.highStreak = row.highStreak ∧ s.recoveryStreak = row.recoveryStreak ∧
      s.activeEpisodeId.bind a.openingOf = row.activeOpening := by
  obtain ⟨s, hs, rfl⟩ := Option.map_eq_some_iff.mp h
  exact ⟨s, hs, rfl, rfl, rfl, rfl⟩

/-- A timely reading of the device itself. -/
theorem advance_self (h : a.Sound known stored) (htimely : Reference.Timely r) {ref : Reference}
    (href : Represents a r.deviceId ref) : Represents (a.advance r) r.deviceId (ref.step r) := by
  unfold AlertTables.advance Reference.step
  rw [if_pos (isFresh_iff.mpr htimely), if_pos htimely]
  cases ref with
  | unseen =>
    have hnone : a.alertStates.find? r.deviceId = none := Option.map_eq_none_iff.mp href.state
    simp only [AlertTables.candidate, hnone]
    exact evaluate_normal _ h rfl rfl rfl rfl href.episodes
  | seen lastEventAt mode resolved =>
    -- the row of the device has the time of the reference
    obtain ⟨row, hrow, hlast⟩ : ∃ row, a.stateOf r.deviceId = some row ∧
        row.lastEventAt = lastEventAt := by
      cases mode with
      | normal count => exact ⟨_, href.state, rfl⟩
      | alerting opening count => exact ⟨_, href.state, rfl⟩
    obtain ⟨s, hfind, hslast, hhigh, hrecovery, hactive⟩ := exists_state hrow
    obtain ⟨hs, hdevice⟩ := Table.find?_eq_some.mp hfind
    have hbounded := h.bounded s hs
    simp only [AlertTables.candidate, hfind, hslast, hlast]
    by_cases hlater : r.eventAt ≤ lastEventAt
    · rw [if_pos hlater, if_pos hlater]
      exact href
    · rw [if_neg hlater, if_neg hlater]
      cases mode with
      | normal count =>
        obtain rfl : row = ⟨lastEventAt, count, 0, none⟩ :=
          Option.some.inj (hrow.symm.trans href.state)
        have hidle : s.activeEpisodeId = none := by
          cases hid : s.activeEpisodeId with
          | none => rfl
          | some id =>
            obtain ⟨e, he, rfl, -⟩ := h.active s hs id hid
            rw [hid, Option.bind_some, AlertTables.openingOf, Table.find?_eq_some.mpr ⟨he, rfl⟩]
              at hactive
            exact absurd hactive (by simp)
        have hcount : s.highStreak = count := hhigh
        rw [← hcount]
        exact evaluate_normal { s with lastEventAt := r.eventAt } h hdevice rfl hidle hrecovery
          href.episodes
      | alerting opening count =>
        obtain rfl : row = ⟨lastEventAt, 0, count, some opening.telemetryId⟩ :=
          Option.some.inj (hrow.symm.trans href.state)
        obtain ⟨id, hid, -⟩ := Option.bind_eq_some_iff.mp hactive
        obtain ⟨e, he, rfl, howner, hopen⟩ := h.active s hs id hid
        have hcount : s.recoveryStreak = count := hrecovery
        rw [← hcount]
        exact evaluate_alerting { s with lastEventAt := r.eventAt } h hdevice rfl he hid
          (howner.trans hdevice) hopen hhigh href.episodes

/-- A reading advances the rows of every device as the rule does. -/
theorem advance_represents (h : a.Sound known stored) {ref : Reference} (href : Represents a d ref)
    (r : Reading) : Represents (a.advance r) d (if r.deviceId = d then ref.step r else ref) := by
  by_cases htimely : Reference.Timely r
  · by_cases hdevice : r.deviceId = d
    · subst hdevice
      rw [if_pos rfl]
      exact advance_self h htimely href
    · rw [if_neg hdevice, AlertTables.advance, if_pos (isFresh_iff.mpr htimely)]
      cases hc : a.candidate r with
      | none => exact href
      | some state =>
        obtain ⟨hself, -, hfits⟩ := AlertTables.candidate_fits h hc
        exact advanceRow_other h hfits (hself ▸ hdevice) hself href
  · -- the reading is skipped everywhere
    have hskip : ref.step r = ref := if_neg htimely
    rw [AlertTables.advance, if_neg (isFresh_iff.not.mpr htimely), hskip, ite_self]
    exact href

end Rows

/-! ## Runs -/

section Runs

variable {pg : NumericColumn} {db₀ db db' : Db}

/-- The rows since `db₀`, and what the reference runs make of them. -/
structure Refines (db₀ db : Db) : Prop where
  sound : db.AlertsSound
  rows : ∃ new, db.telemetry.rows = db₀.telemetry.rows ++ new ∧
    ∀ d, Represents db.alerts d (Reference.run d (new.map Telemetry.reading))

theorem Refines.of_same (h : Refines db₀ db) (hsound : db'.AlertsSound)
    (htelemetry : db'.telemetry = db.telemetry) (hstates : db'.alerts.alertStates = db.alerts.alertStates)
    (hepisodes : db'.alerts.alertEpisodes = db.alerts.alertEpisodes) : Refines db₀ db' := by
  obtain ⟨new, hnew, hrepresents⟩ := h.rows
  have hopening : db'.alerts.openingOf = db.alerts.openingOf := by
    funext id
    rw [AlertTables.openingOf, AlertTables.openingOf, hepisodes]
  refine ⟨hsound, new, by rw [htelemetry, hnew], fun d => ⟨?_, ?_⟩⟩
  · rw [← (hrepresents d).state, AlertTables.stateOf, AlertTables.stateOf, hstates, hopening]
  · rw [← (hrepresents d).episodes, AlertTables.episodesOf, AlertTables.deviceEpisodes, hepisodes]
    rfl

/-- One item keeps the refinement: a new row is one more reading of its device. -/
theorem ItemStep.refines {i : Ingestion} {index : Nat} {item : BatchItem}
    {result : TelemetryResponseItem} (hstep : ItemStep .advances i index db item result db')
    (hi : i.Registered db) (h : Refines db₀ db) : Refines db₀ db' := by
  have hsound := (hstep.alerts h.sound hi).1
  cases hstep with
  | response => exact h
  | refused => exact h
  | dataError => exact h
  | duplicate => exact h.of_same hsound rfl rfl rfl
  | conflict => exact h.of_same hsound rfl rfl rfl
  | @accepted item value row db₁ alerts hrefusal hvalue hinsert halerts =>
    -- one reading more in the table, one step more of the rule
    obtain ⟨new, hnew, hrepresents⟩ := h.rows
    obtain ⟨-, -, hrows, -⟩ := insertTelemetry_some hinsert
    refine ⟨hsound, new ++ [row], ?_, fun d => ?_⟩
    · rw [present_telemetry, show (db₁.withAlerts alerts).telemetry.rows = _ from hrows, hnew,
        List.append_assoc]
    · rw [present_alerts, List.map_append, List.map_singleton, Reference.run_append]
      have hadvance := advance_represents h.sound (hrepresents d) row.reading
      rwa [← show alerts = db.alerts.advance row.reading from halerts] at hadvance

theorem ItemSteps.refines {i : Ingestion} {index : Nat} {items : List BatchItem}
    {results : List TelemetryResponseItem}
    (hsteps : ItemSteps .advances i index db items results db') (hi : i.Registered db)
    (h : Refines db₀ db) : Refines db₀ db' := by
  induction hsteps with
  | nil => exact h
  | cons head _ ih => exact ih (hi.of_sameRegistry head.sameRegistry) (head.refines hi h)

theorem Transaction.refines (ht : Transaction pg db db') (h : Refines db₀ db) : Refines db₀ db' := by
  have hsound := (ht.alerts h.sound).1
  cases ht with
  | @committed clock gatewayId batchId batch response _ hcommitted =>
    rcases ingestBatch_cases h.sound pg clock gatewayId batch batchId with
      hforbidden | ⟨response', db₁, hok, hsteps, -⟩
    · rw [hforbidden] at hcommitted
      exact absurd hcommitted (by simp)
    · rw [hok] at hcommitted
      obtain ⟨-, rfl⟩ := Prod.mk.inj (Except.ok.inj hcommitted)
      exact hsteps.refines ingestion_registered h
  | rolledBack hrolled =>
    exact h.of_same hsound hrolled.telemetry hrolled.alertStates hrolled.alertEpisodes
  | registry htelemetry halerts =>
    exact h.of_same hsound htelemetry (by rw [halerts]) (by rw [halerts])

theorem Run.refines (hempty : db₀.NoAlerts) (hrun : Run pg db₀ db) : Refines db₀ db := by
  induction hrun with
  | refl =>
    refine ⟨hempty.alertsSound, [], (List.append_nil _).symm, fun d => ?_⟩
    exact represents_unseen hempty.1 hempty.2 d
  | step _ last ih => exact last.refines ih

end Runs

/-! ## One Sequence, Cut Differently -/

/-- The same event, in whatever telemetry row. -/
structure Reading.Same (r r' : Reading) : Prop where
  deviceId : r'.deviceId = r.deviceId
  eventAt : r'.eventAt = r.eventAt
  value : r'.value.toRat = r.value.toRat
  receivedAt : r'.receivedAt = r.receivedAt

/-- Two modes that differ in ids only. -/
inductive Mode.Same : Mode → Mode → Prop
  | normal (count : Nat) : Mode.Same (.normal count) (.normal count)
  | alerting {opening opening' : Reading} (h : opening.Same opening') (count : Nat) :
      Mode.Same (.alerting opening count) (.alerting opening' count)

/-- Two resolved episodes that differ in ids only. -/
def SamePair (p p' : Reading × Reading) : Prop := p.1.Same p'.1 ∧ p.2.Same p'.2

/-- Two reference runs that differ in ids only. -/
inductive Reference.Same : Reference → Reference → Prop
  | unseen : Reference.Same .unseen .unseen
  | seen (lastEventAt : Time) {mode mode' : Mode} {resolved resolved' : List (Reading × Reading)}
      (hmode : mode.Same mode') (hresolved : List.Forall₂ SamePair resolved resolved') :
      Reference.Same (.seen lastEventAt mode resolved) (.seen lastEventAt mode' resolved')

namespace Reference

theorem evaluate_same {r r' : Reading} (hr : r.Same r') {mode mode' : Mode} (hmode : mode.Same mode')
    {resolved resolved' : List (Reading × Reading)}
    (hresolved : List.Forall₂ SamePair resolved resolved') :
    (evaluate r mode resolved).Same (evaluate r' mode' resolved') := by
  cases hmode with
  | normal count =>
    simp only [evaluate, hr.eventAt, hr.value]
    split
    · exact .seen _ (.normal 0) hresolved
    · split
      · exact .seen _ (.alerting hr 0) hresolved
      · exact .seen _ (.normal _) hresolved
  | alerting hopening count =>
    simp only [evaluate, hr.eventAt, hr.value]
    split
    · exact .seen _ (.alerting hopening 0) hresolved
    · split
      · refine .seen _ (.normal 0) (List.rel_append hresolved (.cons ⟨hopening, hr⟩ .nil))
      · exact .seen _ (.alerting hopening _) hresolved

theorem step_same {r r' : Reading} (hr : r.Same r') {ref ref' : Reference} (href : ref.Same ref') :
    (ref.step r).Same (ref'.step r') := by
  -- Timeliness is decided by the two times, which the readings share.
  have htimely : Timely r' ↔ Timely r := by
    rw [Timely, Timely, hr.eventAt, hr.receivedAt]
  unfold step
  by_cases h : Timely r
  · rw [if_pos h, if_pos (htimely.mpr h)]
    cases href with
    | unseen => exact evaluate_same hr (.normal 0) .nil
    | seen lastEventAt hmode hresolved =>
      simp only [hr.eventAt]
      split
      · exact .seen lastEventAt hmode hresolved
      · exact evaluate_same hr hmode hresolved
  · rw [if_neg h, if_neg (htimely.not.mpr h)]
    exact href

/-- The reference run does not depend on the ids of telemetry rows. -/
theorem run_same (d : Identifier) {readings readings' : List Reading}
    (h : List.Forall₂ Reading.Same readings readings') : (run d readings).Same (run d readings') := by
  -- Filtering by device keeps the pairs together, so both folds move in step.
  have hfold : ∀ ref ref' : Reference, ref.Same ref' →
      ((readings.filter fun r => decide (r.deviceId = d)).foldl step ref).Same
        ((readings'.filter fun r => decide (r.deviceId = d)).foldl step ref') := by
    induction h with
    | nil => exact fun _ _ href => href
    | cons hr _ ih =>
      intro ref ref' href
      simp only [List.filter_cons, hr.deviceId]
      split
      · exact ih _ _ (step_same hr href)
      · exact ih _ _ href
  exact hfold _ _ .unseen

end Reference

/-- The rows of a device, without the ids of telemetry rows. -/
structure SameAlerts (a a' : AlertTables) (d : Identifier) : Prop where
  states : (a.stateOf d).map (fun s => (s.lastEventAt, s.highStreak, s.recoveryStreak,
      s.activeOpening.isSome)) =
    (a'.stateOf d).map fun s => (s.lastEventAt, s.highStreak, s.recoveryStreak, s.activeOpening.isSome)
  episodes : (a.episodesOf d).map (fun e => (e.openedAt, e.resolvedAt)) =
    (a'.episodesOf d).map fun e => (e.openedAt, e.resolvedAt)

theorem past_same {resolved resolved' : List (Reading × Reading)}
    (h : List.Forall₂ SamePair resolved resolved') :
    (resolved.map DeviceEpisode.past).map (fun e => (e.openedAt, e.resolvedAt)) =
      (resolved'.map DeviceEpisode.past).map fun e => (e.openedAt, e.resolvedAt) := by
  induction h with
  | nil => rfl
  | cons hpair _ ih =>
    simp only [List.map_cons, ih, DeviceEpisode.past, hpair.1.eventAt, hpair.2.eventAt]

theorem sameAlerts_of_represents {a a' : AlertTables} {d : Identifier} {ref ref' : Reference}
    (h : Represents a d ref) (h' : Represents a' d ref') (hsame : ref.Same ref') :
    SameAlerts a a' d := by
  constructor
  · rw [h.state, h'.state]
    cases hsame with
    | unseen => rfl
    | seen lastEventAt hmode hresolved => cases hmode <;> rfl
  · rw [h.episodes, h'.episodes]
    cases hsame with
    | unseen => rfl
    | seen lastEventAt hmode hresolved =>
      cases hmode with
      | normal => exact past_same hresolved
      | alerting hopening =>
        simp only [Reference.episodeRows, List.map_append, past_same hresolved, List.map_cons,
          List.map_nil, DeviceEpisode.active, hopening.eventAt]

/-! ## The Rows and the Rule -/

/-- After any run the alert rows of every device are those of its reference run over the rows
accepted since; a second run that accepts the same events, however they were cut into batches,
leaves the same states and episodes. -/
theorem alerts_refine_reference {pg : NumericColumn} {db₀ db : Db} {new : List Telemetry}
    (hempty : db₀.NoAlerts) (hrun : Run pg db₀ db)
    (hnew : db.telemetry.rows = db₀.telemetry.rows ++ new) :
    (∀ d, Represents db.alerts d (Reference.run d (new.map Telemetry.reading))) ∧
      ∀ db' new', Run pg db₀ db' → db'.telemetry.rows = db₀.telemetry.rows ++ new' →
        List.Forall₂ Reading.Same (new.map Telemetry.reading) (new'.map Telemetry.reading) →
        ∀ d, SameAlerts db.alerts db'.alerts d := by
  -- Any run shows the rule applied to the readings it added.
  have hrefines : ∀ db' new', Run pg db₀ db' → db'.telemetry.rows = db₀.telemetry.rows ++ new' →
      ∀ d, Represents db'.alerts d (Reference.run d (new'.map Telemetry.reading)) := by
    intro db' new' hrun' hnew' d
    obtain ⟨rows, hrows, hrepresents⟩ := (hrun'.refines hempty).rows
    obtain rfl : rows = new' := List.append_cancel_left (hrows.symm.trans hnew')
    exact hrepresents d
  refine ⟨hrefines db new hrun hnew, fun db' new' hrun' hnew' hsame d => ?_⟩
  exact sameAlerts_of_represents (hrefines db new hrun hnew d) (hrefines db' new' hrun' hnew' d)
    (Reference.run_same d hsame)

/-- The three high readings and the rule. -/
theorem alerts_refine_reference_sample :
    ∃ response db, ingestBatch exactColumn sampleClock sampleDb sampleGateway sampleBatch
      sampleBoot = .ok (response, db) ∧ db.alerts.alertEpisodes.rows.length = 1 ∧
      Represents db.alerts sampleDevice
        (Reference.run sampleDevice (db.telemetry.rows.map Telemetry.reading)) := by
  obtain ⟨response, db, hok, hcount⟩ := sampleBatch_commits
  have hrun : Run exactColumn sampleDb db := .step (.refl _) (.committed hok)
  have hnew : db.telemetry.rows = sampleDb.telemetry.rows ++ db.telemetry.rows := rfl
  exact ⟨response, db, hok, hcount,
    (alerts_refine_reference ⟨rfl, rfl⟩ hrun hnew).1 sampleDevice⟩

end EquipmentMonitoring.Backend
