import EquipmentMonitoring.Backend.ItemSteps

/-!
# Replaying a Batch

A gateway that got no response sends the events again. The second time every event is found as the
first time left it, whatever was ingested in between.

## Key Results

- `ItemSteps.recorded`: what a committed batch leaves behind about each of its items
- `Recorded.replay`: an item so recorded is answered from the record, and changes no row
- `replay_noop`: replaying a batch is a no-op
-/

namespace EquipmentMonitoring.Backend

/-! ## The Record of an Item -/

/-- Why an item has its result, as far as the telemetry rows show it. -/
inductive Recorded (i : Ingestion) (t : Table Telemetry.identity) :
    BatchItem → TelemetryResponseItem → Prop
  | response {result : TelemetryResponseItem} (hfinal : result.outcome = .rejected) :
      Recorded i t (.response result) result
  | refused {item : TelemetryEvent} {reason : ItemReason} (hrefusal : i.refusal item = some reason) :
      Recorded i t (.event item) (.rejected item.identity reason)
  | dataError {item : TelemetryEvent} (hrefusal : i.refusal item = none)
      (hvalue : i.pg.store item.value = none) :
      Recorded i t (.event item) (.rejected item.identity .malformedValue)
  /-- The row of the event is there. -/
  | held {item : TelemetryEvent} {value : Decimal} {row : Telemetry} {outcome : Outcome}
      (hrefusal : i.refusal item = none) (hvalue : i.pg.store item.value = some value)
      (hrow : t.find? item.identity = some row)
      (hmatches : matchesContent row i.schemaVersion item = true) (hne : outcome ≠ .rejected) :
      Recorded i t (.event item) (.confirmed item.identity outcome hne)
  /-- A row of another event with its identity is there. -/
  | conflict {item : TelemetryEvent} {value : Decimal} {row : Telemetry}
      (hrefusal : i.refusal item = none) (hvalue : i.pg.store item.value = some value)
      (hrow : t.find? item.identity = some row)
      (hmatches : matchesContent row i.schemaVersion item = false) :
      Recorded i t (.event item) (.rejected item.identity .identityConflict)

section Record

variable {i : Ingestion} {index : Nat} {db db' : Db} {item : BatchItem}
  {result : TelemetryResponseItem} {t t' : Table Telemetry.identity}

/-- Later rows hide no row. -/
theorem find?_append {new : List Telemetry} {identity : Identity} {row : Telemetry}
    (hrows : t'.rows = t.rows ++ new) (h : t.find? identity = some row) :
    t'.find? identity = some row := by
  obtain ⟨hmem, hid⟩ := Table.find?_eq_some.mp h
  refine Table.find?_eq_some.mpr ⟨?_, hid⟩
  rw [Table.mem_def, hrows]
  exact List.mem_append_left _ hmem

theorem Recorded.mono {new : List Telemetry} (hrows : t'.rows = t.rows ++ new)
    (h : Recorded i t item result) : Recorded i t' item result := by
  cases h with
  | response hfinal => exact .response hfinal
  | refused hrefusal => exact .refused hrefusal
  | dataError hrefusal hvalue => exact .dataError hrefusal hvalue
  | held hrefusal hvalue hrow hmatches hne =>
    exact .held hrefusal hvalue (find?_append hrows hrow) hmatches hne
  | conflict hrefusal hvalue hrow hmatches =>
    exact .conflict hrefusal hvalue (find?_append hrows hrow) hmatches

/-- The row an event makes has its content. -/
theorem matchesContent_ofEvent {id : Nat} {v : SchemaVersion} {item : TelemetryEvent}
    {value : Decimal} {at_ : Time} (hvalue : value.toRat = item.value.toRat) :
    matchesContent (Telemetry.ofEvent id v item value at_) v item = true := by
  have hnum : value.numEq item.value = true := Decimal.numEq_iff.mpr hvalue
  simp [matchesContent, Telemetry.ofEvent, hnum]

/-- A step records its item. -/
theorem ItemStep.recorded (h : ItemStep .any i index db item result db')
    (hfinal : ∀ r, item = .response r → r.outcome = .rejected) :
    Recorded i db'.telemetry item result := by
  cases h with
  | response => exact .response (hfinal _ rfl)
  | refused hrefusal => exact .refused hrefusal
  | dataError hrefusal hvalue => exact .dataError hrefusal hvalue
  | duplicate hrefusal hvalue hrow hmatches => exact .held hrefusal hvalue hrow hmatches _
  | conflict hrefusal hvalue hrow hmatches => exact .conflict hrefusal hvalue hrow hmatches
  | @accepted item value row db₁ alerts hrefusal hvalue hinsert halerts =>
    obtain ⟨hrow, -, hrows, -⟩ := insertTelemetry_some hinsert
    rw [present_telemetry]
    have hmem : row ∈ (db₁.withAlerts alerts).telemetry := by
      rw [Table.mem_def, show (db₁.withAlerts alerts).telemetry.rows = _ from hrows]
      exact List.mem_append_right _ (List.mem_singleton_self row)
    have hid : row.identity = item.identity := by rw [hrow]; rfl
    -- a row just stored has the content it was stored from
    have hmatches : matchesContent row i.schemaVersion item = true := by
      rw [hrow]
      exact matchesContent_ofEvent (i.pg.store_eq _ _ hvalue)
    exact .held hrefusal hvalue (Table.find?_eq_some.mpr ⟨hmem, hid⟩) hmatches _

/-- A batch records all its items. -/
theorem ItemSteps.recorded {items : List BatchItem} {results : List TelemetryResponseItem}
    (h : ItemSteps .any i index db items results db')
    (hfinal : ∀ r, BatchItem.response r ∈ items → r.outcome = .rejected) :
    List.Forall₂ (Recorded i db'.telemetry) items results := by
  induction h with
  | nil => exact .nil
  | cons head tail ih =>
    have hhead := head.recorded fun r hr => hfinal r (hr ▸ List.mem_cons_self ..)
    -- the items after it only add rows
    obtain ⟨new, hnew⟩ := tail.telemetry
    exact .cons (hhead.mono hnew) (ih fun r hr => hfinal r (List.mem_cons_of_mem _ hr))

end Record

/-! ## Answering from the Record -/

/-- The same rows, whatever ids have been used up. -/
structure SameRows (db db' : Db) : Prop where
  sites : db'.sites = db.sites
  gateways : db'.gateways = db.gateways
  devices : db'.devices = db.devices
  telemetry : db'.telemetry = db.telemetry
  alertStates : db'.alerts.alertStates = db.alerts.alertStates
  alertEpisodes : db'.alerts.alertEpisodes = db.alerts.alertEpisodes

theorem SameRows.refl (db : Db) : SameRows db db := ⟨rfl, rfl, rfl, rfl, rfl, rfl⟩

theorem SameRows.burn (db : Db) : SameRows db db.burn := ⟨rfl, rfl, rfl, rfl, rfl, rfl⟩

theorem SameRows.trans {db₁ db₂ db₃ : Db} (h₁ : SameRows db₁ db₂) (h₂ : SameRows db₂ db₃) :
    SameRows db₁ db₃ :=
  ⟨h₂.sites.trans h₁.sites, h₂.gateways.trans h₁.gateways, h₂.devices.trans h₁.devices,
    h₂.telemetry.trans h₁.telemetry, h₂.alertStates.trans h₁.alertStates,
    h₂.alertEpisodes.trans h₁.alertEpisodes⟩

/-- The result of an item that is sent again. -/
structure Replays (result result' : TelemetryResponseItem) : Prop where
  deviceId : result'.deviceId = result.deviceId
  bootId : result'.bootId = result.bootId
  sequenceNumber : result'.sequenceNumber = result.sequenceNumber
  confirmed : result.outcome ≠ .rejected → result'.outcome = .duplicate
  rejected : result.outcome = .rejected →
    result'.outcome = .rejected ∧ result'.reason = result.reason

theorem Replays.of_rejected {result : TelemetryResponseItem} (h : result.outcome = .rejected) :
    Replays result result :=
  ⟨rfl, rfl, rfl, fun hne => absurd h hne, fun _ => ⟨h, rfl⟩⟩

section Answer

variable {i : Ingestion} {db : Db} {item : BatchItem} {result : TelemetryResponseItem}

/-- A recorded item is answered from the record, and changes no row. -/
theorem Recorded.replay (h : Recorded i db.telemetry item result) (index : Nat)
    (states : List Identifier) :
    ∃ result' db', i.ingestItem index (Session.clean db states) item =
        .ok (result', Session.clean db' states) ∧
      Replays result result' ∧ SameRows db db' := by
  have hflush : (Session.clean db states).flush = .ok (Session.clean db states) := rfl
  cases h with
  | response hfinal => exact ⟨_, db, rfl, .of_rejected hfinal, .refl db⟩
  | refused hrefusal =>
    refine ⟨_, db, ?_, .of_rejected rfl, .refl db⟩
    rw [Ingestion.ingestItem, hrefusal]
  | dataError hrefusal hvalue =>
    refine ⟨_, db, ?_, .of_rejected rfl, .refl db⟩
    rw [Ingestion.ingestItem, hrefusal]
    exact storeEvent_dataError hflush index hvalue
  -- accepted or duplicate the first time, the row is there: a duplicate now
  | @held item _ _ _ hrefusal hvalue hrow hmatches hne =>
    refine ⟨.confirmed item.identity .duplicate (by decide), db.burn, ?_,
      ⟨rfl, rfl, rfl, fun _ => rfl, fun h => absurd h hne⟩, .burn db⟩
    rw [Ingestion.ingestItem, hrefusal]
    refine (storeEvent_taken hflush index hvalue hrow).trans ?_
    rw [if_pos hmatches]
    rfl
  | conflict hrefusal hvalue hrow hmatches =>
    refine ⟨_, db.burn, ?_, .of_rejected rfl, .burn db⟩
    rw [Ingestion.ingestItem, hrefusal]
    refine (storeEvent_taken hflush index hvalue hrow).trans ?_
    rw [hmatches]
    rfl

theorem replay_items {items : List BatchItem} {results : List TelemetryResponseItem}
    {t : Table Telemetry.identity} (h : List.Forall₂ (Recorded i t) items results)
    (ht : db.telemetry = t) (index : Nat) (states : List Identifier) :
    ∃ results' db', i.ingestItems index (Session.clean db states) items =
        .ok (results', Session.clean db' states) ∧
      List.Forall₂ Replays results results' ∧ SameRows db db' := by
  induction h generalizing index db with
  | nil => exact ⟨[], db, rfl, .nil, .refl db⟩
  | cons hhead _ ih =>
    rw [← ht] at hhead
    -- a replayed item stores nothing, so the record stays valid for the items after it
    obtain ⟨result', db₁, hitem, hreplays, hsame⟩ := hhead.replay index states
    obtain ⟨results', db₂, hitems, hreplays', hsame'⟩ := ih (hsame.telemetry.trans ht) (index + 1)
    refine ⟨result' :: results', db₂, ?_, .cons hreplays hreplays', hsame.trans hsame'⟩
    exact except_bind_eq_ok.mpr ⟨_, hitem, except_bind_eq_ok.mpr ⟨_, hitems, rfl⟩⟩

end Answer

/-! ## The Same Events Again -/

/-- The same item, but for the time the gateway received it. -/
inductive SameItem : BatchItem → BatchItem → Prop
  | response (result : TelemetryResponseItem) : SameItem (.response result) (.response result)
  | event (item : TelemetryEvent) (gatewayReceivedAt : Time) :
      SameItem (.event item) (.event { item with gatewayReceivedAt := gatewayReceivedAt })

/-- Further batches, of any gateways, that commit. -/
inductive Commits (pg : NumericColumn) : Db → Db → Prop
  | refl (db : Db) : Commits pg db db
  | step {db db₁ db₂ : Db} {clock : Clock} {gatewayId batchId : Identifier}
      {batch : ValidatedTelemetryBatch} {response : TelemetryBatchResponse}
      (run : Commits pg db db₁)
      (last : ingestBatch pg clock db₁ gatewayId batch batchId = .ok (response, db₂)) :
      Commits pg db db₂

section Again

variable {pg : NumericColumn} {clock clock' : Clock} {db db' : Db} {gatewayId batchId : Identifier}
  {batch batch' : ValidatedTelemetryBatch} {response : TelemetryBatchResponse}

/-- Committed batches add rows and leave the registry alone. -/
theorem Commits.kept (h : Commits pg db db') :
    SameRegistry db db' ∧ ∃ new, db'.telemetry.rows = db.telemetry.rows ++ new := by
  induction h with
  | refl => exact ⟨.refl _, [], (List.append_nil _).symm⟩
  | step _ last ih =>
    obtain ⟨hregistry, new, hnew⟩ := ih
    obtain ⟨-, -, hsteps⟩ := ingestBatch_eq_ok last
    obtain ⟨more, hmore⟩ := hsteps.telemetry
    exact ⟨hregistry.trans hsteps.sameRegistry, new ++ more, by rw [hmore, hnew, List.append_assoc]⟩

theorem mem_deviceIds {item : TelemetryEvent} (h : BatchItem.event item ∈ batch.items) :
    item.deviceId ∈ batch.deviceIds :=
  List.mem_filterMap.mpr ⟨_, h, rfl⟩

/-- The refusal of an event of the batch is decided by the assignment of its device. -/
theorem refusal_eq {item : TelemetryEvent} (h : item.deviceId ∈ batch.deviceIds) :
    (db.ingestion pg clock gatewayId batch).refusal item =
      match db.assignment item.deviceId with
      | none => some .unknownDevice
      | some (gateway, enabled) =>
        if gateway ≠ gatewayId ∨ enabled = false then some .wrongGateway else none := by
  -- The lock reads the rows of the batch, and this device is one of them.
  have hfind : (db.lockAssignments batch.deviceIds).find? (fun d => decide (d.deviceId = item.deviceId)) =
      db.devices.find? item.deviceId := by
    rw [Db.lockAssignments, List.find?_filter]
    refine congrArg (fun p => db.devices.rows.find? p) (funext fun d => ?_)
    by_cases hdevice : d.deviceId = item.deviceId
    · simp [hdevice, h]
    · simp [hdevice]
  simp only [Ingestion.refusal, Db.ingestion, hfind, Db.assignment]
  cases db.devices.find? item.deviceId <;> rfl

/-- The record of an item is one of the same item sent again. -/
theorem Recorded.again {t : Table Telemetry.identity} {item item' : BatchItem}
    {result : TelemetryResponseItem}
    (h : Recorded (db.ingestion pg clock gatewayId batch) t item result) (hsame : SameItem item item')
    (hitem : item ∈ batch.items) (hitem' : item' ∈ batch'.items) (hregistry : SameRegistry db db') :
    Recorded (db'.ingestion pg clock' gatewayId batch') t item' result := by
  cases hsame with
  | response => cases h with | response hfinal => exact .response hfinal
  | event item at_ =>
    have hrefusal : (db'.ingestion pg clock' gatewayId batch').refusal
        { item with gatewayReceivedAt := at_ } =
          (db.ingestion pg clock gatewayId batch).refusal item := by
      rw [refusal_eq (mem_deviceIds hitem), refusal_eq (mem_deviceIds hitem'),
        hregistry.assignments]
    cases h with
    | refused h => exact .refused (hrefusal.trans h)
    | dataError h hvalue => exact .dataError (hrefusal.trans h) hvalue
    | held h hvalue hrow hmatches hne => exact .held (hrefusal.trans h) hvalue hrow hmatches hne
    | conflict h hvalue hrow hmatches => exact .conflict (hrefusal.trans h) hvalue hrow hmatches

theorem forall₂_again (clock' : Clock) {t : Table Telemetry.identity} {results : List TelemetryResponseItem}
    {items items' : List BatchItem}
    (h : List.Forall₂ (Recorded (db.ingestion pg clock gatewayId batch) t) items results)
    (hsame : List.Forall₂ SameItem items items') (hitems : ∀ x ∈ items, x ∈ batch.items)
    (hitems' : ∀ x ∈ items', x ∈ batch'.items) (hregistry : SameRegistry db db') :
    List.Forall₂ (Recorded (db'.ingestion pg clock' gatewayId batch') t) items' results := by
  induction h generalizing items' with
  | nil =>
    rw [List.forall₂_nil_left_iff.mp hsame]
    exact .nil
  | cons hhead _ ih =>
    obtain ⟨item', rest', hitem', hrest', rfl⟩ := List.forall₂_cons_left_iff.mp hsame
    rw [List.forall_mem_cons] at hitems hitems'
    exact .cons (hhead.again hitem' hitems.1 hitems'.1 hregistry) (ih hrest' hitems.2 hitems'.2)

/-- Replaying a batch is a no-op: each item is answered as before, with `duplicate` for what is
stored, and no row changes. -/
theorem replay_noop {db₀ db₁ db₂ : Db}
    (hcommitted : ingestBatch pg clock db₀ gatewayId batch batchId = .ok (response, db₁))
    (hlater : Commits pg db₁ db₂) (hsame : List.Forall₂ SameItem batch.items batch'.items)
    (clock' : Clock) (batchId' : Identifier) :
    ∃ results' db₃, ingestBatch pg clock' db₂ gatewayId batch' batchId' =
        .ok (⟨batchId', results'⟩, db₃) ∧
      List.Forall₂ Replays response.results results' ∧ SameRows db₂ db₃ := by
  obtain ⟨heligible, -, hsteps⟩ := ingestBatch_eq_ok hcommitted
  obtain ⟨hregistry, new, hnew⟩ := hlater.kept
  have hregistry₂ : SameRegistry db₀ db₂ := hsteps.sameRegistry.trans hregistry
  -- what the batch recorded is still there
  have hrecorded := (hsteps.recorded batch.rejections).imp fun _ _ h => h.mono hnew
  have hagain := forall₂_again clock' hrecorded hsame (fun _ h => h) (fun _ h => h) hregistry₂
  obtain ⟨results', db₃, hitems, hreplays, hrows⟩ := replay_items hagain rfl 0 []
  refine ⟨results', db₃, ?_, hreplays, hrows⟩
  have heligible₂ : db₂.gatewayEligibility gatewayId = some (true, true) :=
    (hregistry₂.gatewayEligibility gatewayId).trans heligible
  unfold ingestBatch
  rw [heligible₂]
  refine except_mapError_eq_ok.mpr (except_bind_eq_ok.mpr ⟨_, hitems, ?_⟩)
  rfl

def laterBatch : ValidatedTelemetryBatch where
  schemaVersion := .v1
  items := sampleSeconds.map fun second =>
    .event { sampleReading second with gatewayReceivedAt := microseconds 60 }
  nonempty := by simp [sampleSeconds]
  size := by decide
  rejections := by simp

/-- The batch of three readings, sent again when the gateway received them a minute later. -/
theorem replay_noop_sample :
    ∃ response db₁, ingestBatch exactColumn sampleClock sampleDb sampleGateway sampleBatch
      sampleBoot = .ok (response, db₁) ∧ db₁.alerts.alertEpisodes.rows.length = 1 ∧
      ∃ results' db₂, ingestBatch exactColumn sampleClock db₁ sampleGateway laterBatch sampleDevice =
        .ok (⟨sampleDevice, results'⟩, db₂) ∧
      List.Forall₂ Replays response.results results' ∧ SameRows db₁ db₂ := by
  obtain ⟨response, db₁, hok, hcount⟩ := sampleBatch_commits
  have hsame : List.Forall₂ SameItem sampleBatch.items laterBatch.items :=
    .cons (.event _ _) (.cons (.event _ _) (.cons (.event _ _) (.cons (.event _ _) .nil)))
  exact ⟨response, db₁, hok, hcount, replay_noop hok (.refl db₁) hsame sampleClock sampleDevice⟩

end Again

end EquipmentMonitoring.Backend
