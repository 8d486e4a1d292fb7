import EquipmentMonitoring.Backend.AlertSession
import EquipmentMonitoring.Backend.Ingest

/-!
# What a Batch Does to the Rows

One case for each way an item can be classified, and the batch as a run of such steps.

## Layers

- `ItemStep`, `ItemSteps`: the rows before and after, over the alert tables an acceptance may leave
- `ingestItem_eq_ok`: every item that returns is such a step
- `ingestItem_ok`: in a sound session every item returns, and the alert tables advance
- `ingestBatch_cases`: a batch is refused as a whole or runs to its end
-/

namespace EquipmentMonitoring.Backend

/-! ## Rows -/

section Rows

variable {db db' : Db} {v : SchemaVersion} {item : TelemetryEvent} {value : Decimal} {t : Time}
  {row : Telemetry}

/-- The presence update of an accepted event. -/
def Db.present (db : Db) (item : TelemetryEvent) (backendReceivedAt seenAt : Time) : Db :=
  if 0 ≤ backendReceivedAt - item.gatewayReceivedAt ∧
      backendReceivedAt - item.gatewayReceivedAt ≤ maxPresenceAge then
    db.recordPresence item.deviceId seenAt
  else db

/-- An insertion returns a row when the identity is free. -/
theorem insertTelemetry_some (h : db.insertTelemetry v item value t = (some row, db')) :
    row = Telemetry.ofEvent db.nextTelemetryId v item value t ∧
      (∀ r ∈ db.telemetry, r.identity ≠ item.identity) ∧
      db'.telemetry.rows = db.telemetry.rows ++ [row] ∧
      db'.nextTelemetryId = db.nextTelemetryId + 1 ∧
      db'.sites = db.sites ∧ db'.gateways = db.gateways ∧ db'.devices = db.devices ∧
      db'.alerts = db.alerts := by
  unfold Db.insertTelemetry at h
  simp only at h
  split at h
  · next telemetry hinsert =>
    obtain ⟨hrow, rfl⟩ := Prod.mk.inj h
    obtain rfl := Option.some.inj hrow
    obtain ⟨hfree, hrows⟩ := Table.insert_eq_some.mp hinsert
    exact ⟨rfl, hfree, hrows, rfl, rfl, rfl, rfl, rfl⟩
  · exact absurd h (by simp)

/-- It returns none when a row has the identity. -/
theorem insertTelemetry_none (h : db.insertTelemetry v item value t = (none, db')) :
    (∃ r ∈ db.telemetry, r.identity = item.identity) ∧ db' = db.burn := by
  unfold Db.insertTelemetry at h
  simp only at h
  split at h
  · exact absurd h (by simp)
  · next hinsert =>
    exact ⟨Table.insert_eq_none.mp hinsert, (Prod.mk.inj h).2.symm⟩

theorem insertTelemetry_of_taken (h : ∃ r ∈ db.telemetry, r.identity = item.identity) :
    db.insertTelemetry v item value t = (none, db.burn) := by
  unfold Db.insertTelemetry
  simp only
  split
  · next hinsert =>
    obtain ⟨r, hr, hid⟩ := h
    exact absurd hid ((Table.insert_eq_some.mp hinsert).1 r hr)
  · rfl

end Rows

/-! ## Steps -/

/-- The alert tables an accepted reading may leave. -/
abbrev Alerting := AlertTables → Reading → AlertTables → Prop

/-- The tables advance. -/
def Alerting.advances : Alerting := fun a r a' => a' = a.advance r

/-- Nothing is said of them. -/
def Alerting.any : Alerting := fun _ _ _ => True

/-- What one item does: its result, and the rows before and after. -/
inductive ItemStep (alerting : Alerting) (i : Ingestion) (index : Nat) (db : Db) :
    BatchItem → TelemetryResponseItem → Db → Prop
  | response {result : TelemetryResponseItem} :
      ItemStep alerting i index db (.response result) result db
  | refused {item : TelemetryEvent} {reason : ItemReason} (hrefusal : i.refusal item = some reason) :
      ItemStep alerting i index db (.event item) (.rejected item.identity reason) db
  | dataError {item : TelemetryEvent} (hrefusal : i.refusal item = none)
      (hvalue : i.pg.store item.value = none) :
      ItemStep alerting i index db (.event item) (.rejected item.identity .malformedValue) db
  | duplicate {item : TelemetryEvent} {value : Decimal} {row : Telemetry}
      (hrefusal : i.refusal item = none) (hvalue : i.pg.store item.value = some value)
      (hrow : db.telemetry.find? item.identity = some row)
      (hmatches : matchesContent row i.schemaVersion item = true) :
      ItemStep alerting i index db (.event item)
        (.confirmed item.identity .duplicate (by decide)) db.burn
  | conflict {item : TelemetryEvent} {value : Decimal} {row : Telemetry}
      (hrefusal : i.refusal item = none) (hvalue : i.pg.store item.value = some value)
      (hrow : db.telemetry.find? item.identity = some row)
      (hmatches : matchesContent row i.schemaVersion item = false) :
      ItemStep alerting i index db (.event item) (.rejected item.identity .identityConflict) db.burn
  | accepted {item : TelemetryEvent} {value : Decimal} {row : Telemetry} {db' : Db}
      {alerts : AlertTables} (hrefusal : i.refusal item = none)
      (hvalue : i.pg.store item.value = some value)
      (hinsert : db.insertTelemetry i.schemaVersion item value (i.clock.insertion index) =
        (some row, db'))
      (halerts : alerting db.alerts row.reading alerts) :
      ItemStep alerting i index db (.event item)
        (.confirmed item.identity .accepted (by decide))
        ((db'.withAlerts alerts).present item row.backendReceivedAt (i.clock.presence index))

/-- The items of a batch in order, from an index on. -/
inductive ItemSteps (alerting : Alerting) (i : Ingestion) :
    Nat → Db → List BatchItem → List TelemetryResponseItem → Db → Prop
  | nil {index : Nat} {db : Db} : ItemSteps alerting i index db [] [] db
  | cons {index : Nat} {db db₁ db₂ : Db} {item : BatchItem} {result : TelemetryResponseItem}
      {items : List BatchItem} {results : List TelemetryResponseItem}
      (head : ItemStep alerting i index db item result db₁)
      (tail : ItemSteps alerting i (index + 1) db₁ items results db₂) :
      ItemSteps alerting i index db (item :: items) (result :: results) db₂

/-! ## What No Item Changes -/

section Frame

variable {alerting : Alerting} {i : Ingestion} {index : Nat} {db db' : Db} {item : BatchItem}
  {result : TelemetryResponseItem}

/-- What the registry says of a device to the ingestion. -/
def Db.assignment (db : Db) (deviceId : Identifier) : Option (Identifier × Bool) :=
  (db.devices.find? deviceId).map fun d => (d.gatewayId, d.enabled)

/-- Same gateways, sites and assignments. -/
structure SameRegistry (db db' : Db) : Prop where
  sites : db'.sites = db.sites
  gateways : db'.gateways = db.gateways
  assignments : ∀ d, db'.assignment d = db.assignment d

theorem SameRegistry.refl (db : Db) : SameRegistry db db := ⟨rfl, rfl, fun _ => rfl⟩

theorem SameRegistry.trans {db₁ db₂ db₃ : Db} (h₁ : SameRegistry db₁ db₂)
    (h₂ : SameRegistry db₂ db₃) : SameRegistry db₁ db₃ :=
  ⟨h₂.sites.trans h₁.sites, h₂.gateways.trans h₁.gateways,
    fun d => (h₂.assignments d).trans (h₁.assignments d)⟩

theorem SameRegistry.hasDevice (h : SameRegistry db db') (d : Identifier) :
    db'.hasDevice d = db.hasDevice d := by
  have hsome := congrArg Option.isSome (h.assignments d)
  rwa [Db.assignment, Option.isSome_map, Db.assignment, Option.isSome_map] at hsome

theorem SameRegistry.gatewayEligibility (h : SameRegistry db db') (g : Identifier) :
    db'.gatewayEligibility g = db.gatewayEligibility g := by
  simp only [Db.gatewayEligibility, h.sites, h.gateways]

theorem assignment_recordPresence (db : Db) (deviceId d : Identifier) (seenAt : Time) :
    (db.recordPresence deviceId seenAt).assignment d = db.assignment d := by
  rw [Db.assignment, Db.recordPresence, Table.find?_update, Option.map_map]
  refine congrArg (fun f => (db.devices.find? d).map f) (funext fun device => ?_)
  simp only [Function.comp_apply]
  split <;> rfl

theorem sameRegistry_present (db : Db) (item : TelemetryEvent) (t seenAt : Time) :
    SameRegistry db (db.present item t seenAt) := by
  unfold Db.present
  split
  · exact ⟨rfl, rfl, fun d => assignment_recordPresence db _ d seenAt⟩
  · exact .refl db

theorem present_alerts (db : Db) (item : TelemetryEvent) (t seenAt : Time) :
    (db.present item t seenAt).alerts = db.alerts := by
  unfold Db.present
  split <;> rfl

theorem present_telemetry (db : Db) (item : TelemetryEvent) (t seenAt : Time) :
    (db.present item t seenAt).telemetry = db.telemetry := by
  unfold Db.present
  split <;> rfl

theorem ItemStep.sameRegistry (h : ItemStep alerting i index db item result db') :
    SameRegistry db db' := by
  cases h with
  | response => exact .refl db
  | refused => exact .refl db
  | dataError => exact .refl db
  | duplicate => exact ⟨rfl, rfl, fun _ => rfl⟩
  | conflict => exact ⟨rfl, rfl, fun _ => rfl⟩
  | accepted _ _ hinsert =>
    obtain ⟨-, -, -, -, hsites, hgateways, hdevices, -⟩ := insertTelemetry_some hinsert
    refine SameRegistry.trans ?_ (sameRegistry_present ..)
    exact ⟨hsites, hgateways, fun d => by simp only [Db.assignment, Db.withAlerts, hdevices]⟩

/-- Rows are added at the end, and none goes. -/
theorem ItemStep.telemetry (h : ItemStep alerting i index db item result db') :
    ∃ new, db'.telemetry.rows = db.telemetry.rows ++ new := by
  cases h with
  | response => exact ⟨[], (List.append_nil _).symm⟩
  | refused => exact ⟨[], (List.append_nil _).symm⟩
  | dataError => exact ⟨[], (List.append_nil _).symm⟩
  | duplicate => exact ⟨[], (List.append_nil _).symm⟩
  | conflict => exact ⟨[], (List.append_nil _).symm⟩
  | accepted _ _ hinsert =>
    obtain ⟨-, -, hrows, -⟩ := insertTelemetry_some hinsert
    exact ⟨_, by rw [present_telemetry]; exact hrows⟩

end Frame

/-! ## Items that Return -/

section Returns

variable {i : Ingestion} {index : Nat} {s s' : Session} {result : TelemetryResponseItem}

/-- A flush writes the view. -/
theorem flush_eq_ok (h : s.flush = .ok s') : s' = s.written := by
  obtain ⟨states, hstates, h⟩ := except_bind_eq_ok.mp h
  obtain ⟨episodes, hepisodes, h⟩ := except_bind_eq_ok.mp h
  rw [Table.writeAll_eq_ok hstates, Table.writeAll_eq_ok hepisodes] at h
  exact (except_pure_eq_ok.mp h).symm

/-- A statement that touches the alert tables leaves the others. -/
theorem openEpisode_view {state : AlertState} {eventAt : Time} {id : Nat}
    (h : openEpisode s state eventAt id = .ok s') :
    ∃ alerts, s'.view = s.view.withAlerts alerts := by
  obtain ⟨s₁, hflush, h⟩ := except_bind_eq_ok.mp h
  obtain ⟨⟨id, db⟩, hinsert, h⟩ := except_bind_eq_ok.mp h
  obtain ⟨_, -, hinsert⟩ := except_bind_eq_ok.mp hinsert
  rw [flush_eq_ok hflush] at hinsert h
  split at hinsert
  · simp at hinsert
  · obtain ⟨-, rfl⟩ := Prod.mk.inj (except_pure_eq_ok.mp hinsert)
    exact ⟨_, (congrArg Session.view (except_pure_eq_ok.mp h)).symm⟩

theorem resolveEpisode_view {state : AlertState} {eventAt : Time} {id episodeId : Nat}
    (h : resolveEpisode s state episodeId eventAt id = .ok s') :
    ∃ alerts, s'.view = s.view.withAlerts alerts := by
  obtain ⟨s₁, hflush, h⟩ := except_bind_eq_ok.mp h
  rw [flush_eq_ok hflush] at h
  split at h
  · simp at h
  · exact ⟨_, (congrArg Session.view (except_pure_eq_ok.mp h)).symm⟩

theorem obtainState_view {d : Identifier} {eventAt : Time} {state : AlertState}
    (h : obtainState s d eventAt = some (state, s')) : s'.view = s.view := by
  unfold obtainState at h
  repeat' split at h
  all_goals simp only [Option.some.injEq, Prod.mk.injEq, reduceCtorEq] at h
  all_goals
    obtain ⟨-, rfl⟩ := h
    rfl

theorem evaluate_view {item : TelemetryEvent} {id : Nat} {t : Time}
    (h : evaluateAcceptedReading s item id t = .ok s') :
    ∃ alerts, s'.view = s.view.withAlerts alerts := by
  unfold evaluateAcceptedReading at h
  split at h
  · exact ⟨_, (congrArg Session.view (Except.ok.inj h)).symm⟩
  · split at h
    · exact ⟨_, (congrArg Session.view (Except.ok.inj h)).symm⟩
    · next state s₁ hobtain =>
      rw [← obtainState_view hobtain]
      -- whichever streak is counted, only the alert tables of the view change
      unfold advanceState at h
      split at h <;> simp only at h <;> split at h
      · exact openEpisode_view h
      · exact ⟨_, (congrArg Session.view (Except.ok.inj h)).symm⟩
      · exact resolveEpisode_view h
      · exact ⟨_, (congrArg Session.view (Except.ok.inj h)).symm⟩

theorem presence_view {item : TelemetryEvent} {t seenAt : Time}
    (h : presence s item t seenAt = .ok s') : s'.view = s.view.present item t seenAt := by
  simp only [presence] at h
  unfold Db.present
  split at h
  · next hrecent =>
    obtain ⟨s₁, hflush, h⟩ := except_bind_eq_ok.mp h
    rw [flush_eq_ok hflush] at h
    rw [if_pos hrecent]
    exact (congrArg Session.view (except_pure_eq_ok.mp h)).symm
  · next hold =>
    rw [if_neg hold]
    exact (congrArg Session.view (Except.ok.inj h)).symm

/-- The row an existing identity has. -/
theorem readExistingEvent_eq_ok {db : Db} {identity : Identity} {row : Telemetry} :
    readExistingEvent db identity = .ok row ↔ db.telemetry.find? identity = some row := by
  unfold readExistingEvent
  split <;> simp_all

/-- Every item that returns is a step of the view. -/
theorem ingestItem_eq_ok {item : BatchItem} (h : i.ingestItem index s item = .ok (result, s')) :
    ItemStep .any i index s.view item result s'.view := by
  unfold Ingestion.ingestItem at h
  split at h
  · obtain ⟨rfl, rfl⟩ := Prod.mk.inj (Except.ok.inj h)
    exact .response
  · next item =>
    split at h
    · next reason hrefusal =>
      obtain ⟨rfl, rfl⟩ := Prod.mk.inj (Except.ok.inj h)
      exact .refused hrefusal
    · next hrefusal =>
      obtain ⟨⟨outcome, s₁⟩, hinserted, h⟩ := except_bind_eq_ok.mp h
      obtain ⟨s₀, hflush, hinserted⟩ := except_bind_eq_ok.mp hinserted
      obtain rfl := flush_eq_ok hflush
      split at hinserted
      · next hvalue =>
        obtain ⟨rfl, rfl⟩ := Prod.mk.inj (except_pure_eq_ok.mp hinserted)
        obtain ⟨rfl, rfl⟩ := Prod.mk.inj (except_pure_eq_ok.mp h)
        exact .dataError hrefusal hvalue
      · next value hvalue =>
        split at hinserted
        · next row db hinsert =>
          obtain ⟨rfl, rfl⟩ := Prod.mk.inj (except_pure_eq_ok.mp hinserted)
          obtain ⟨s₂, hevaluate, h⟩ := except_bind_eq_ok.mp h
          obtain ⟨s₃, hpresence, h⟩ := except_bind_eq_ok.mp h
          obtain ⟨rfl, rfl⟩ := Prod.mk.inj (except_pure_eq_ok.mp h)
          obtain ⟨alerts, hview⟩ := evaluate_view hevaluate
          rw [presence_view hpresence, hview]
          exact .accepted hrefusal hvalue hinsert trivial
        · next db hinsert =>
          obtain ⟨rfl, rfl⟩ := Prod.mk.inj (except_pure_eq_ok.mp hinserted)
          obtain ⟨existing, hread, h⟩ := except_bind_eq_ok.mp h
          -- a conflicting insertion only burns an id, so the row read back is the one of the view
          obtain ⟨-, hburn⟩ := insertTelemetry_none hinsert
          have hrow : s.view.telemetry.find? item.identity = some existing := by
            have := readExistingEvent_eq_ok.mp hread
            rwa [hburn] at this
          have hview : Session.view { s.written with db := db } = s.view.burn := hburn
          split at h
          · next hmatches =>
            obtain ⟨rfl, rfl⟩ := Prod.mk.inj (except_pure_eq_ok.mp h)
            rw [hview]
            exact .duplicate hrefusal hvalue hrow hmatches
          · next hmatches =>
            obtain ⟨rfl, rfl⟩ := Prod.mk.inj (except_pure_eq_ok.mp h)
            rw [hview]
            exact .conflict hrefusal hvalue hrow (Bool.eq_false_iff.mpr hmatches)

theorem ingestItems_eq_ok {items : List BatchItem} {results : List TelemetryResponseItem}
    (h : i.ingestItems index s items = .ok (results, s')) :
    ItemSteps .any i index s.view items results s'.view := by
  induction items generalizing index s results with
  | nil =>
    obtain ⟨rfl, rfl⟩ := Prod.mk.inj (Except.ok.inj h)
    exact .nil
  | cons item rest ih =>
    obtain ⟨⟨result, s₁⟩, hitem, h⟩ := except_bind_eq_ok.mp h
    obtain ⟨⟨results', s₂⟩, hrest, h⟩ := except_bind_eq_ok.mp h
    obtain ⟨rfl, rfl⟩ := Prod.mk.inj (except_pure_eq_ok.mp h)
    exact .cons (ingestItem_eq_ok hitem) (ih hrest)

end Returns

/-! ## Sound Sessions -/

section Sound

variable {i : Ingestion} {index : Nat} {s : Session} {db db' : Db} {v : SchemaVersion}
  {item : TelemetryEvent} {value : Decimal} {t : Time} {row : Telemetry}

theorem SameRegistry.known (h : SameRegistry db db') {d : Identifier} (hd : db.known d) :
    db'.known d := (h.hasDevice d).trans hd

/-- An insertion keeps the alert tables sound, and no episode names the new row. -/
theorem insertTelemetry_sound (h : db.AlertsSound) (hknown : db.known item.deviceId)
    (hinsert : db.insertTelemetry v item value t = (some row, db')) :
    db'.AlertsSound ∧ db'.alerts.Fresh db'.known db'.stored row.reading := by
  obtain ⟨hrow, -, hrows, -, -, -, hdevices, halerts⟩ := insertTelemetry_some hinsert
  have hsame : ∀ d, db'.known d ↔ db.known d := fun d => by
    simp only [Db.known, Db.hasDevice, hdevices]
  have hmem : ∀ r, db'.stored r ↔ db.stored r ∨ r = row := fun r => by
    simp only [Db.stored, Table.mem_def, hrows, List.mem_append, List.mem_singleton]
  have hid : row.id = db.nextTelemetryId := congrArg Telemetry.id hrow
  have hdevice : row.deviceId = item.deviceId := congrArg Telemetry.deviceId hrow
  refine ⟨?_, ⟨row, (hmem row).mpr (.inr rfl), rfl⟩, (hsame _).mpr ?_, ?_, ?_⟩
  · rw [Db.AlertsSound, halerts]
    exact h.mono (fun d => (hsame d).mpr) fun r hr => (hmem r).mpr (.inl hr)
  · rwa [← hdevice] at hknown
  · -- episodes name stored rows, whose ids are smaller
    rw [halerts]
    intro e he hopening
    obtain ⟨⟨r, hr, hrid, -⟩, -⟩ := h.episodes e he
    have hlt : r.id < db.nextTelemetryId := db.telemetry_lt r hr
    have hnew : r.id = row.id := hrid.trans hopening
    omega
  · rw [halerts]
    intro e he hresolving
    obtain ⟨-, hunresolved, hresolved⟩ := h.episodes e he
    cases ht : e.resolvedAt with
    | none =>
      rw [hunresolved ht] at hresolving
      exact absurd hresolving (by simp)
    | some at_ =>
      obtain ⟨-, r, hr, hrid, -⟩ := hresolved at_ ht
      have hlt : r.id < db.nextTelemetryId := db.telemetry_lt r hr
      have hnew : r.id = row.id := Option.some.inj (hrid.symm.trans hresolving)
      omega

theorem recordPresence_sound (h : db.AlertsSound) (deviceId : Identifier) (seenAt : Time) :
    (db.recordPresence deviceId seenAt).AlertsSound := by
  have hsame : SameRegistry db (db.recordPresence deviceId seenAt) :=
    ⟨rfl, rfl, fun d => assignment_recordPresence db _ d seenAt⟩
  exact AlertTables.Sound.mono h (fun _ => hsame.known) fun _ => id

/-- A presence update violates nothing. -/
theorem presence_ok (h : s.Sound) (ht : s.Tracked) (item : TelemetryEvent) (t seenAt : Time) :
    ∃ s', presence s item t seenAt = .ok s' ∧ s'.view = s.view.present item t seenAt ∧
      s'.Sound ∧ s'.Tracked := by
  simp only [presence]
  unfold Db.present
  split
  · refine ⟨Session.clean (s.view.recordPresence item.deviceId seenAt) s.states, ?_, rfl,
      Session.sound_written (recordPresence_sound h.view _ _), ht⟩
    rw [Session.flush_ok h]
    rfl
  · exact ⟨s, rfl, rfl, h, ht⟩

/-- The devices of the assignments are registered. -/
def Ingestion.Registered (i : Ingestion) (db : Db) : Prop :=
  ∀ d ∈ i.assignments, db.known d.deviceId

theorem Ingestion.Registered.known (h : i.Registered db) (hrefusal : i.refusal item = none) :
    db.known item.deviceId := by
  unfold Ingestion.refusal at hrefusal
  split at hrefusal
  · simp at hrefusal
  · next device hfind =>
    have hdevice : device.deviceId = item.deviceId := by simpa using List.find?_some hfind
    exact hdevice ▸ h device (List.mem_of_find?_eq_some hfind)

theorem Ingestion.Registered.of_sameRegistry (h : i.Registered db) (hsame : SameRegistry db db') :
    i.Registered db' := fun d hd => hsame.known (h d hd)

/-- A new row advances its device, and the acceptance violates nothing. -/
theorem accept_ok (h : s.Sound) (ht : s.Tracked) (hknown : s.view.known item.deviceId)
    (hvalue : value.toRat = item.value.toRat)
    (hinsert : s.view.insertTelemetry v item value t = (some row, db)) (seenAt : Time) :
    ∃ s₁ s₂, evaluateAcceptedReading (Session.clean db s.states) item row.id row.backendReceivedAt =
        .ok s₁ ∧ presence s₁ item row.backendReceivedAt seenAt = .ok s₂ ∧
      s₂.view = (db.withAlerts (s.view.alerts.advance row.reading)).present item
        row.backendReceivedAt seenAt ∧ s₂.Sound ∧ s₂.Tracked := by
  obtain ⟨hsound, hfresh⟩ := insertTelemetry_sound h.view hknown hinsert
  obtain ⟨hrow, -, -, -, -, -, -, halerts⟩ := insertTelemetry_some hinsert
  -- The insertion of a reading touches no alert row, so what was tracked stays.
  have htracked : (Session.clean db s.states).Tracked := by
    intro d hd
    obtain ⟨state, hstate, hdevice⟩ := ht d hd
    refine ⟨state, ?_, hdevice⟩
    change state ∈ db.alerts.alertStates
    rw [halerts]
    exact hstate
  have hdevice : row.deviceId = item.deviceId := congrArg Telemetry.deviceId hrow
  have hevent : row.eventAt = item.eventAt := congrArg Telemetry.eventAt hrow
  have hstored : row.value.toRat = item.value.toRat := by rw [hrow]; exact hvalue
  obtain ⟨s₁, hevaluate, hsound₁, hview, htracked₁⟩ :=
    evaluate_ok hsound htracked hfresh hdevice hevent hstored
  obtain ⟨s₂, hpresence, hview₂, hsound₂, htracked₂⟩ :=
    presence_ok hsound₁ htracked₁ item row.backendReceivedAt seenAt
  refine ⟨s₁, s₂, hevaluate, hpresence, ?_, hsound₂, htracked₂⟩
  rw [hview₂, hview, halerts]

/-- A number the column cannot hold. -/
theorem storeEvent_dataError (hflush : s.flush = .ok s.written) (index : Nat)
    (hvalue : i.pg.store item.value = none) :
    i.storeEvent index s item = .ok (.rejected item.identity .malformedValue, s.written) := by
  have hinserted : insertEvent i.pg s i.schemaVersion item (i.clock.insertion index) =
      .ok (.dataError, s.written) :=
    except_bind_eq_ok.mpr ⟨_, hflush, by rw [hvalue]; rfl⟩
  exact except_bind_eq_ok.mpr ⟨_, hinserted, rfl⟩

/-- An event whose identity is taken is compared with the row. -/
theorem storeEvent_taken (hflush : s.flush = .ok s.written) (index : Nat)
    (hvalue : i.pg.store item.value = some value)
    (hrow : s.view.telemetry.find? item.identity = some row) :
    i.storeEvent index s item =
      .ok (if matchesContent row i.schemaVersion item then
          .confirmed item.identity .duplicate (by decide)
        else .rejected item.identity .identityConflict, Session.clean s.view.burn s.states) := by
  obtain ⟨hmem, hid⟩ := Table.find?_eq_some.mp hrow
  -- The conflict burns an id and leaves the session clean.
  have hinserted : insertEvent i.pg s i.schemaVersion item (i.clock.insertion index) =
      .ok (.conflict, Session.clean s.view.burn s.states) := by
    refine except_bind_eq_ok.mpr ⟨_, hflush, ?_⟩
    simp only [hvalue, Session.written, insertTelemetry_of_taken ⟨row, hmem, hid⟩]
    rfl
  have hread : readExistingEvent s.view.burn item.identity = .ok row :=
    readExistingEvent_eq_ok.mpr hrow
  refine except_bind_eq_ok.mpr ⟨_, hinserted, except_bind_eq_ok.mpr ⟨row, hread, ?_⟩⟩
  split <;> rfl

/-- In a sound session every item returns, and the alert tables advance. -/
theorem ingestItem_ok (h : s.Sound) (ht : s.Tracked) (hi : i.Registered s.view)
    (index : Nat) (item : BatchItem) :
    ∃ result s', i.ingestItem index s item = .ok (result, s') ∧
      ItemStep .advances i index s.view item result s'.view ∧ s'.Sound ∧ s'.Tracked := by
  cases item with
  | response result => exact ⟨result, s, rfl, .response, h, ht⟩
  | event item =>
    cases hrefusal : i.refusal item with
    | some reason =>
      refine ⟨_, s, ?_, .refused hrefusal, h, ht⟩
      rw [Ingestion.ingestItem, hrefusal]
    | none =>
      -- An event that is not refused is stored; what follows is the insertion's answer.
      have hstore : i.ingestItem index s (.event item) = i.storeEvent index s item := by
        rw [Ingestion.ingestItem, hrefusal]
      rw [hstore]
      cases hvalue : i.pg.store item.value with
      | none =>
        exact ⟨_, _, storeEvent_dataError (Session.flush_ok h) index hvalue,
          .dataError hrefusal hvalue, h.written, ht⟩
      | some value =>
        obtain ⟨inserted, db, hinsert⟩ : ∃ inserted db, s.view.insertTelemetry i.schemaVersion item
          value (i.clock.insertion index) = (inserted, db) := ⟨_, _, rfl⟩
        cases inserted with
        | none =>
          obtain ⟨⟨row, hrow, hid⟩, rfl⟩ := insertTelemetry_none hinsert
          have hfind : s.view.telemetry.find? item.identity = some row :=
            Table.find?_eq_some.mpr ⟨hrow, hid⟩
          -- the id is taken by the failed insertion, which no alert row refers to
          have hburn : s.view.burn.AlertsSound := h.view
          refine ⟨_, _, storeEvent_taken (Session.flush_ok h) index hvalue hfind, ?_,
            Session.sound_written hburn, ht⟩
          split
          · next hmatches => exact .duplicate hrefusal hvalue hfind hmatches
          · next hmatches => exact .conflict hrefusal hvalue hfind (Bool.eq_false_iff.mpr hmatches)
        | some row =>
          obtain ⟨s₁, s₂, hevaluate, hpresence, hview, hsound, htracked⟩ :=
            accept_ok h ht (hi.known hrefusal) (i.pg.store_eq _ _ hvalue) hinsert
              (i.clock.presence index)
          have hinserted : insertEvent i.pg s i.schemaVersion item (i.clock.insertion index) =
              .ok (.inserted row, Session.clean db s.states) :=
            except_bind_eq_ok.mpr ⟨_, Session.flush_ok h, by
              simp only [hvalue, Session.written, hinsert]; rfl⟩
          refine ⟨_, s₂, except_bind_eq_ok.mpr ⟨_, hinserted, except_bind_eq_ok.mpr ⟨s₁, hevaluate,
            except_bind_eq_ok.mpr ⟨s₂, hpresence, rfl⟩⟩⟩, ?_, hsound, htracked⟩
          rw [hview]
          exact .accepted hrefusal hvalue hinsert rfl

theorem ingestItems_ok (items : List BatchItem) (h : s.Sound) (ht : s.Tracked)
    (hi : i.Registered s.view) (index : Nat) :
    ∃ results s', i.ingestItems index s items = .ok (results, s') ∧
      ItemSteps .advances i index s.view items results s'.view ∧ s'.Sound := by
  induction items generalizing s index with
  | nil => exact ⟨[], s, rfl, .nil, h⟩
  | cons item rest ih =>
    obtain ⟨result, s₁, hitem, hstep, h₁, ht₁⟩ := ingestItem_ok h ht hi index item
    obtain ⟨results, s₂, hrest, hsteps, h₂⟩ :=
      ih h₁ ht₁ (hi.of_sameRegistry hstep.sameRegistry) (index + 1)
    refine ⟨result :: results, s₂, ?_, .cons hstep hsteps, h₂⟩
    exact except_bind_eq_ok.mpr ⟨_, hitem, except_bind_eq_ok.mpr ⟨_, hrest, rfl⟩⟩

end Sound

/-! ## Batches -/

section Batches

variable {pg : NumericColumn} {clock : Clock} {db db' : Db} {gatewayId batchId : Identifier}
  {batch : ValidatedTelemetryBatch} {response : TelemetryBatchResponse}

/-- What the transaction of a batch begins with. -/
def Db.ingestion (db : Db) (pg : NumericColumn) (clock : Clock) (gatewayId : Identifier)
    (batch : ValidatedTelemetryBatch) : Ingestion :=
  ⟨pg, clock, gatewayId, batch.schemaVersion, db.lockAssignments batch.deviceIds⟩

theorem ingestion_registered : (db.ingestion pg clock gatewayId batch).Registered db := by
  intro d hd
  have hmem : d ∈ db.devices := (List.mem_filter.mp hd).1
  rw [Db.known, Db.hasDevice, Table.find?_eq_some.mpr ⟨hmem, rfl⟩]
  rfl

/-- A committed batch is a run of steps. -/
theorem ingestBatch_eq_ok
    (h : ingestBatch pg clock db gatewayId batch batchId = .ok (response, db')) :
    db.gatewayEligibility gatewayId = some (true, true) ∧ response.batchId = batchId ∧
      ItemSteps .any (db.ingestion pg clock gatewayId batch) 0 db batch.items response.results
        db' := by
  unfold ingestBatch at h
  split at h
  · next heligible =>
    obtain ⟨⟨results, s⟩, hitems, h⟩ := except_bind_eq_ok.mp (except_mapError_eq_ok.mp h)
    obtain ⟨s', hflush, h⟩ := except_bind_eq_ok.mp h
    obtain ⟨rfl, rfl⟩ := Prod.mk.inj (except_pure_eq_ok.mp h)
    obtain rfl := flush_eq_ok hflush
    exact ⟨heligible, rfl, ingestItems_eq_ok hitems⟩
  · simp at h

/-- With sound alert tables a batch is refused as a whole or runs to its end. -/
theorem ingestBatch_cases (h : db.AlertsSound) (pg : NumericColumn) (clock : Clock)
    (gatewayId : Identifier) (batch : ValidatedTelemetryBatch) (batchId : Identifier) :
    ingestBatch pg clock db gatewayId batch batchId = .error .gatewayForbidden ∨
      ∃ response db', ingestBatch pg clock db gatewayId batch batchId = .ok (response, db') ∧
        ItemSteps .advances (db.ingestion pg clock gatewayId batch) 0 db batch.items
          response.results db' ∧ db'.AlertsSound := by
  unfold ingestBatch
  split
  · obtain ⟨results, s, hitems, hsteps, hsound⟩ := ingestItems_ok batch.items
      (Session.sound_written h) (fun d hd => absurd hd List.not_mem_nil) ingestion_registered 0
    refine .inr ⟨⟨batchId, results⟩, s.view, except_mapError_eq_ok.mpr ?_, hsteps, hsound.view⟩
    exact except_bind_eq_ok.mpr ⟨_, hitems, except_bind_eq_ok.mpr ⟨_, Session.flush_ok hsound, rfl⟩⟩
  · exact .inl rfl

/-- What every step of a batch keeps, the batch keeps. -/
theorem ItemSteps.induction {alerting : Alerting} {i : Ingestion} {index : Nat}
    {items : List BatchItem} {results : List TelemetryResponseItem} {P : Db → Prop}
    (hstep : ∀ index db item result db', ItemStep alerting i index db item result db' → P db → P db')
    (h : ItemSteps alerting i index db items results db') (hdb : P db) : P db' := by
  induction h with
  | nil => exact hdb
  | cons head _ ih => exact ih (hstep _ _ _ _ _ head hdb)

theorem ItemSteps.sameRegistry {alerting : Alerting} {i : Ingestion} {index : Nat}
    {items : List BatchItem} {results : List TelemetryResponseItem}
    (h : ItemSteps alerting i index db items results db') : SameRegistry db db' :=
  h.induction (P := fun d => SameRegistry db d) (fun _ _ _ _ _ hstep hd => hd.trans hstep.sameRegistry)
    (.refl db)

theorem ItemSteps.telemetry {alerting : Alerting} {i : Ingestion} {index : Nat}
    {items : List BatchItem} {results : List TelemetryResponseItem}
    (h : ItemSteps alerting i index db items results db') :
    ∃ new, db'.telemetry.rows = db.telemetry.rows ++ new := by
  induction h with
  | nil => exact ⟨[], (List.append_nil _).symm⟩
  | cons head _ ih =>
    obtain ⟨new, hnew⟩ := head.telemetry
    obtain ⟨more, hmore⟩ := ih
    exact ⟨new ++ more, by rw [hmore, hnew, List.append_assoc]⟩

end Batches

end EquipmentMonitoring.Backend
