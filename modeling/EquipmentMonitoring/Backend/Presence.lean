import EquipmentMonitoring.Backend.DeviceService
import EquipmentMonitoring.Backend.ItemSteps
import EquipmentMonitoring.Backend.ReadModels
import EquipmentMonitoring.Foundations.Latest

/-!
# Presence (`record_heartbeat`, `ingest_batch`, `list_device_status`)

Two writers set `last_seen_at` of a device, each while its transaction has the device's row locked:
a heartbeat to the application's time, an accepted recent reading to the database's. The device list
derives from it whether the device is online.

## Layers

1. `recordHeartbeat`, the switches of the registry, and `Service.step`
2. `Refreshes`: when a call confirms contact with a device, stated of its input and its response
3. `Clocked`: all readings come from one clock that does not go back

## Key Results

- `step_lastSeen`: a call leaves the latest time at which it refreshes, or what was there
- `run_latest`: so after a run the column holds the latest refresh
- `presence_sound`: the column never decreases, changes by refreshes only, and tells who is online
-/

namespace EquipmentMonitoring.Backend

/-! ## Calls -/

inductive HeartbeatError where
  | invalidDeviceCredentials
deriving DecidableEq

/-- What the calls are made with; none of them writes `password_hash`. -/
structure Service where
  pg : NumericColumn
  credentials : Devices.Credentials
  passwordHash : Identifier → Option Bytes

/-- The body of `record_heartbeat`, `now` read while the row is locked. -/
def Service.recordHeartbeat (service : Service) (db : Db) (deviceId : Identifier) (password : Bytes)
    (now : Time) : Except HeartbeatError Db :=
  match db.devices.find? deviceId with
  | none => .error .invalidDeviceCredentials
  | some device =>
    if device.enabled ∧ db.gatewayEligibility device.gatewayId = some (true, true) ∧
        service.credentials.verifyPassword password (service.passwordHash deviceId) then
      .ok (db.recordPresence deviceId now)
    else .error .invalidDeviceCredentials

/-- UPDATE devices SET enabled. -/
def Db.enableDevice (db : Db) (deviceId : Identifier) (enabled : Bool) : Db :=
  { db with
    devices := db.devices.update (fun d => decide (d.deviceId = deviceId))
      (fun d => { d with enabled := enabled }) fun _ => rfl }

/-- UPDATE gateways SET enabled. -/
def Db.enableGateway (db : Db) (gatewayId : Identifier) (enabled : Bool) : Db :=
  { db with
    gateways := db.gateways.update (fun g => decide (g.gatewayId = gatewayId))
      (fun g => { g with enabled := enabled }) fun _ => rfl }

/-- UPDATE sites SET enabled. -/
def Db.enableSite (db : Db) (siteId : Identifier) (enabled : Bool) : Db :=
  { db with
    sites := db.sites.update (fun s => decide (s.siteId = siteId))
      (fun s => { s with enabled := enabled }) fun _ => rfl }

/-- A call with what it reads from the clock, and whether its transaction commits. -/
inductive Call where
  | heartbeat (deviceId : Identifier) (password : Bytes) (now : Time) (committed : Bool)
  | ingest (clock : Clock) (gatewayId : Identifier) (batch : ValidatedTelemetryBatch)
      (batchId : Identifier) (committed : Bool)
  | enableDevice (deviceId : Identifier) (enabled : Bool)
  | enableGateway (gatewayId : Identifier) (enabled : Bool)
  | enableSite (siteId : Identifier) (enabled : Bool)
  | list (now : Time)

/-- The tables after a call. -/
def Service.step (service : Service) (db : Db) : Call → Db
  | .heartbeat deviceId password now committed =>
    match service.recordHeartbeat db deviceId password now with
    | .ok db' => if committed then db' else db
    | .error _ => db
  | .ingest clock gatewayId batch batchId committed =>
    match ingestBatch service.pg clock db gatewayId batch batchId with
    | .ok (_, db') => if committed then db' else db
    | .error _ => db
  | .enableDevice deviceId enabled => db.enableDevice deviceId enabled
  | .enableGateway gatewayId enabled => db.enableGateway gatewayId enabled
  | .enableSite siteId enabled => db.enableSite siteId enabled
  | .list _ => db

def Service.run (service : Service) (db : Db) (calls : List Call) : Db :=
  calls.foldl service.step db

/-! ## What is Observed -/

/-- `last_seen_at` of a device. -/
def Db.lastSeen (db : Db) (deviceId : Identifier) : Option Time :=
  (db.devices.find? deviceId).bind Device.lastSeenAt

/-- The device, its gateway and its site are enabled. -/
def Db.Enabled (db : Db) (deviceId : Identifier) : Prop :=
  ∃ device, db.devices.find? deviceId = some device ∧ device.enabled = true ∧
    db.gatewayEligibility device.gatewayId = some (true, true)

/-- A device list read at time `now` shows the device online. -/
def Db.ReportedOnline (db : Db) (names : Names) (now : Time) (deviceId : Identifier) : Prop :=
  ∃ status ∈ listDeviceStatus db names now, status.deviceId = deviceId ∧ status.online = true

/-- The gateway received the reading 0 to 90 seconds before the backend. -/
def TelemetryEvent.Recent (item : TelemetryEvent) (backendReceivedAt : Time) : Prop :=
  0 ≤ backendReceivedAt - item.gatewayReceivedAt ∧
    backendReceivedAt - item.gatewayReceivedAt ≤ maxPresenceAge

instance (item : TelemetryEvent) (backendReceivedAt : Time) :
    Decidable (item.Recent backendReceivedAt) := inferInstanceAs (Decidable (_ ∧ _))

/-- The call confirms contact with the device at time `t`: it is a heartbeat that is accepted, or it
newly accepts a recent reading of the device. -/
def Service.Refreshes (service : Service) (db : Db) (deviceId : Identifier) (t : Time) :
    Call → Prop
  | .heartbeat sender password now committed =>
    committed = true ∧ sender = deviceId ∧ now = t ∧ db.Enabled deviceId ∧
      service.credentials.verifyPassword password (service.passwordHash deviceId) = true
  | .ingest clock gatewayId batch batchId committed =>
    committed = true ∧ ∃ response db',
      ingestBatch service.pg clock db gatewayId batch batchId = .ok (response, db') ∧
      ∃ index item result, batch.items[index]? = some (.event item) ∧
        response.results[index]? = some result ∧ item.deviceId = deviceId ∧
        result.outcome = .accepted ∧ item.Recent (clock.insertion index) ∧
        clock.presence index = t
  | _ => False

/-- Some call of the run confirms contact at time `t`; or it was known at the start of the run. -/
def Service.Refreshed (service : Service) (start : Db) (calls : List Call) (deviceId : Identifier)
    (t : Time) : Prop :=
  start.lastSeen deviceId = some t ∨ ∃ before call, before ++ [call] <+: calls ∧
    service.Refreshes (service.run start before) deviceId t call

/-! ## One Clock -/

/-- What a call reads from the clock while it has the row of the device locked. -/
def Call.stamps (deviceId : Identifier) : Call → List Time
  | .heartbeat sender _ now _ => if sender = deviceId then [now] else []
  | .ingest clock _ batch _ _ =>
    if deviceId ∈ batch.deviceIds then
      (List.range batch.items.length).flatMap fun index =>
        [clock.insertion index, clock.presence index]
    else []
  | _ => []

/-- The readings that are compared with the device's column, or become it. -/
def Call.readings (deviceId : Identifier) : Call → List Time
  | .list now => [now]
  | call => call.stamps deviceId

/-- No reading is earlier than one that was taken under the lock of the same row before. So it is
with one clock that does not go back; calls on other devices may overlap. -/
structure Clocked (start : Db) (calls : List Call) : Prop where
  start : ∀ deviceId t, start.lastSeen deviceId = some t →
    ∀ call ∈ calls, ∀ t' ∈ call.readings deviceId, t ≤ t'
  inside : ∀ deviceId, ∀ call ∈ calls, (call.stamps deviceId).Pairwise (· ≤ ·)
  across : ∀ deviceId, calls.Pairwise fun call call' =>
    ∀ t ∈ call.stamps deviceId, ∀ t' ∈ call'.readings deviceId, t ≤ t'

/-! ## One Item -/

section Items

variable {i : Ingestion} {index : Nat} {db db' : Db} {deviceId : Identifier}

theorem lastSeen_recordPresence (db : Db) (sender deviceId : Identifier) (t : Time)
    (hknown : db.hasDevice sender = true) : (db.recordPresence sender t).lastSeen deviceId =
      if sender = deviceId then some t else db.lastSeen deviceId := by
  rw [Db.lastSeen, Db.recordPresence, Table.find?_update]
  cases hfind : db.devices.find? deviceId with
  | none =>
    -- the update meets no row here, and the sender has one
    have hne : sender ≠ deviceId := by
      rintro rfl
      simp [Db.hasDevice, hfind] at hknown
    simp [Db.lastSeen, hfind, hne]
  | some device =>
    obtain ⟨-, rfl⟩ := Table.find?_eq_some.mp hfind
    simp only [Db.lastSeen, hfind, Option.map_some, Option.bind_some, decide_eq_true_eq]
    by_cases hself : sender = device.deviceId
    · simp [hself]
    · simp [hself, Ne.symm hself]

theorem present_eq (db : Db) (item : TelemetryEvent) (backendReceivedAt seenAt : Time) :
    db.present item backendReceivedAt seenAt =
      if item.Recent backendReceivedAt then db.recordPresence item.deviceId seenAt else db := rfl

/-- The time to which an item of a batch sets the column of a device, if it does. -/
def presenceTime (clock : Clock) (deviceId : Identifier) (index : Nat) (item : BatchItem)
    (result : TelemetryResponseItem) : Option Time :=
  match item with
  | .response _ => none
  | .event item =>
    if item.deviceId = deviceId ∧ result.outcome = .accepted ∧
        item.Recent (clock.insertion index) then some (clock.presence index)
    else none

theorem presenceTime_of_not_accepted {clock : Clock} {item : BatchItem}
    {result : TelemetryResponseItem} (h : result.outcome ≠ .accepted) :
    presenceTime clock deviceId index item result = none := by
  cases item with
  | response => rfl
  | event item => simp [presenceTime, h]

theorem lastSeen_burn (db : Db) (deviceId : Identifier) :
    db.burn.lastSeen deviceId = db.lastSeen deviceId := rfl

/-- An item that is newly accepted and recent sets the column; no other does. -/
theorem ItemStep.lastSeen {item : BatchItem} {result : TelemetryResponseItem}
    (h : ItemStep .any i index db item result db') (hregistered : i.Registered db) :
    db'.lastSeen deviceId =
      (presenceTime i.clock deviceId index item result).or (db.lastSeen deviceId) := by
  cases h with
  | response => rfl
  | refused hrefusal =>
    rw [presenceTime_of_not_accepted (by simp [TelemetryResponseItem.rejected]), Option.none_or]
  | dataError hrefusal hvalue =>
    rw [presenceTime_of_not_accepted (by simp [TelemetryResponseItem.rejected]), Option.none_or]
  | duplicate hrefusal hvalue hrow hmatches =>
    rw [presenceTime_of_not_accepted (by simp [TelemetryResponseItem.confirmed]), Option.none_or,
      lastSeen_burn]
  | conflict hrefusal hvalue hrow hmatches =>
    rw [presenceTime_of_not_accepted (by simp [TelemetryResponseItem.rejected]), Option.none_or,
      lastSeen_burn]
  | @accepted item value row db₁ alerts hrefusal hvalue hinsert halerts =>
    obtain ⟨hrow, -, -, -, -, -, hdevices, -⟩ := insertTelemetry_some hinsert
    -- Neither the reading nor its alerts touch a device row.
    have hsame (d : Identifier) : (db₁.withAlerts alerts).lastSeen d = db.lastSeen d := by
      simp only [Db.lastSeen, Db.withAlerts, hdevices]
    have hknown : (db₁.withAlerts alerts).hasDevice item.deviceId = true := by
      rw [Db.hasDevice, Db.withAlerts, hdevices]
      exact hregistered.known hrefusal
    have hreceived : row.backendReceivedAt = i.clock.insertion index := by rw [hrow]; rfl
    rw [hreceived]
    by_cases hrecent : item.Recent (i.clock.insertion index)
    · rw [present_eq, if_pos hrecent, lastSeen_recordPresence _ _ _ _ hknown, hsame]
      by_cases hself : item.deviceId = deviceId
      · simp [presenceTime, hself, hrecent, TelemetryResponseItem.confirmed]
      · simp [presenceTime, hself]
    · rw [present_eq, if_neg hrecent, hsame]
      simp [presenceTime, hrecent]

end Items

/-! ## One Batch -/

section Batches

variable {i : Ingestion} {db db' : Db} {deviceId : Identifier} {clock : Clock}
  {items : List BatchItem} {results : List TelemetryResponseItem}

/-- The times to which a batch sets the column of a device, in the order of its items. -/
def presenceTimes (clock : Clock) (deviceId : Identifier) (index : Nat) (items : List BatchItem)
    (results : List TelemetryResponseItem) : List Time :=
  ((items.zip results).zipIdx index).filterMap fun p =>
    presenceTime clock deviceId p.2 p.1.1 p.1.2

theorem ItemSteps.lastSeen {index : Nat} (h : ItemSteps .any i index db items results db')
    (hregistered : i.Registered db) : db'.lastSeen deviceId =
      (presenceTimes i.clock deviceId index items results).getLast?.or (db.lastSeen deviceId) := by
  induction h with
  | nil => rfl
  | @cons index db db₁ db₂ item result items results head tail ih =>
    rw [ih (hregistered.of_sameRegistry head.sameRegistry), head.lastSeen hregistered]
    simp only [presenceTimes, List.zip_cons_cons, List.zipIdx_cons, List.filterMap_cons]
    cases presenceTime i.clock deviceId index item result with
    | none => simp
    | some t => simp [List.getLast?_cons]

theorem mem_presenceTimes {t : Time} : t ∈ presenceTimes clock deviceId 0 items results ↔
    ∃ index item result, items[index]? = some (.event item) ∧ results[index]? = some result ∧
      item.deviceId = deviceId ∧ result.outcome = .accepted ∧
      item.Recent (clock.insertion index) ∧ clock.presence index = t := by
  rw [presenceTimes, List.mem_filterMap]
  constructor
  · rintro ⟨⟨⟨item, result⟩, index⟩, hmem, ht⟩
    -- an item and its result stand at the same place of the two lists
    have hzip := List.mem_zipIdx_iff_getElem?.mp hmem
    obtain ⟨hitem, hresult⟩ := List.getElem?_zip_eq_some.mp hzip
    cases item with
    | response => simp [presenceTime] at ht
    | event item =>
      simp only [presenceTime, Option.ite_none_right_eq_some, Option.some.injEq] at ht
      obtain ⟨⟨hdevice, haccepted, hrecent⟩, rfl⟩ := ht
      exact ⟨index, item, result, hitem, hresult, hdevice, haccepted, hrecent, rfl⟩
  · rintro ⟨index, item, result, hitem, hresult, hdevice, haccepted, hrecent, rfl⟩
    refine ⟨((.event item, result), index), ?_, ?_⟩
    · exact List.mem_zipIdx_iff_getElem?.mpr (List.getElem?_zip_eq_some.mpr ⟨hitem, hresult⟩)
    · exact if_pos ⟨hdevice, haccepted, hrecent⟩

/-- The update of a later item is not earlier. -/
theorem presenceTimes_pairwise (hclock : ∀ j k, j < k → k < items.length →
    clock.presence j ≤ clock.presence k) :
    (presenceTimes clock deviceId 0 items results).Pairwise (· ≤ ·) := by
  have htime {index : Nat} {item : BatchItem} {result : TelemetryResponseItem} {t : Time}
      (h : presenceTime clock deviceId index item result = some t) : clock.presence index = t := by
    cases item with
    | response => simp [presenceTime] at h
    | event item =>
      simp only [presenceTime, Option.ite_none_right_eq_some, Option.some.injEq] at h
      exact h.2
  rw [presenceTimes, List.pairwise_filterMap, List.pairwise_iff_getElem]
  intro j k hj hk hlt t ht t' ht'
  simp only [List.getElem_zipIdx, Nat.zero_add] at ht ht'
  rw [← htime ht, ← htime ht']
  refine hclock j k hlt ?_
  simp only [List.length_zipIdx, List.length_zip] at hk
  omega

end Batches

/-! ## One Call -/

section Calls

variable (service : Service) {db : Db} {deviceId : Identifier} {call : Call}

/-- The readings of a batch, from those of its items. -/
theorem presence_le_of_stamps {gatewayId batchId : Identifier} {clock : Clock}
    {batch : ValidatedTelemetryBatch} {committed : Bool} (hmem : deviceId ∈ batch.deviceIds)
    (h : ((Call.ingest clock gatewayId batch batchId committed).stamps deviceId).Pairwise (· ≤ ·))
    {j k : Nat} (hjk : j < k) (hk : k < batch.items.length) :
    clock.presence j ≤ clock.presence k := by
  rw [Call.stamps, if_pos hmem, List.pairwise_flatMap, List.pairwise_iff_getElem] at h
  have hpair := h.2 j k (by simp; omega) (by simpa using hk) hjk
  simp only [List.getElem_range] at hpair
  exact hpair _ (by simp) _ (by simp)

/-- Confirmed contact was stamped while the row was locked. -/
theorem Service.Refreshes.mem_stamps {service : Service} {t : Time}
    (h : service.Refreshes db deviceId t call) : t ∈ call.stamps deviceId := by
  cases call with
  | heartbeat sender password now committed =>
    obtain ⟨-, rfl, rfl, -⟩ := h
    simp [Call.stamps]
  | ingest clock gatewayId batch batchId committed =>
    obtain ⟨-, response, db', -, index, item, result, hitem, -, rfl, -, -, rfl⟩ := h
    have hmem : BatchItem.event item ∈ batch.items := List.mem_of_getElem? hitem
    have hlt : index < batch.items.length := by
      by_contra hge
      rw [List.getElem?_eq_none (by omega)] at hitem
      simp at hitem
    -- The batch locks the row of every device it names.
    have hdevice : item.deviceId ∈ batch.deviceIds :=
      List.mem_filterMap.mpr ⟨_, hmem, rfl⟩
    rw [Call.stamps, if_pos hdevice, List.mem_flatMap]
    exact ⟨index, List.mem_range.mpr hlt, by simp⟩
  | _ => exact h.elim

theorem recordHeartbeat_eq_ok_iff {password : Bytes} {now : Time} {db' : Db} :
    service.recordHeartbeat db deviceId password now = .ok db' ↔ db.Enabled deviceId ∧
      service.credentials.verifyPassword password (service.passwordHash deviceId) = true ∧
      db.recordPresence deviceId now = db' := by
  unfold Service.recordHeartbeat Db.Enabled
  cases db.devices.find? deviceId with
  | none => simp
  | some device =>
    simp only [Option.some.injEq, exists_eq_left']
    split
    · next h =>
      obtain ⟨henabled, heligible, hpassword⟩ := h
      simp [henabled, heligible, hpassword]
    · next h =>
      simp only [reduceCtorEq, false_iff]
      rintro ⟨⟨henabled, heligible⟩, hpassword, -⟩
      exact h ⟨henabled, heligible, hpassword⟩

theorem Db.Enabled.hasDevice (h : db.Enabled deviceId) : db.hasDevice deviceId = true := by
  obtain ⟨device, hfind, -⟩ := h
  simp [Db.hasDevice, hfind]

/-- A switch of the registry leaves the column alone. -/
theorem lastSeen_enableDevice (sender : Identifier) (enabled : Bool) :
    (db.enableDevice sender enabled).lastSeen deviceId = db.lastSeen deviceId := by
  rw [Db.lastSeen, Db.enableDevice, Table.find?_update, Db.lastSeen]
  cases db.devices.find? deviceId with
  | none => rfl
  | some device =>
    simp only [Option.map_some, Option.bind_some]
    split <;> rfl

theorem heartbeat_lastSeen (sender : Identifier) (password : Bytes) (now : Time)
    (committed : Bool) : ∃ v,
    Latest {t | service.Refreshes db deviceId t (.heartbeat sender password now committed)} v ∧
      (service.step db (.heartbeat sender password now committed)).lastSeen deviceId =
        v.or (db.lastSeen deviceId) := by
  -- A heartbeat counts only when it is this device's, is accepted and its transaction commits.
  by_cases haccepted : committed = true ∧ sender = deviceId ∧ db.Enabled deviceId ∧
      service.credentials.verifyPassword password (service.passwordHash deviceId) = true
  · obtain ⟨rfl, rfl, henabled, hpassword⟩ := haccepted
    have hok : service.recordHeartbeat db sender password now =
        .ok (db.recordPresence sender now) :=
      (recordHeartbeat_eq_ok_iff service).mpr ⟨henabled, hpassword, rfl⟩
    refine ⟨some now, ?_, ?_⟩
    · have hset : {t | service.Refreshes db sender t (.heartbeat sender password now true)} =
          {t | some now = some t} := by
        ext t
        simp [Service.Refreshes, henabled, hpassword]
      rw [hset]
      exact latest_option (some now)
    · simp only [Service.step, hok, if_true]
      rw [lastSeen_recordPresence _ _ _ _ henabled.hasDevice, if_pos rfl, Option.some_or]
  · refine ⟨none, ?_, ?_⟩
    · refine Set.eq_empty_iff_forall_notMem.mpr ?_
      rintro t ⟨hcommitted, hsender, -, henabled, hpassword⟩
      exact haccepted ⟨hcommitted, hsender, henabled, hpassword⟩
    · rw [Option.none_or, Service.step]
      split
      · next db' hok =>
        obtain ⟨henabled, hpassword, rfl⟩ := (recordHeartbeat_eq_ok_iff service).mp hok
        split
        · next hcommitted =>
          rw [lastSeen_recordPresence _ _ _ _ henabled.hasDevice, if_neg]
          rintro rfl
          exact haccepted ⟨hcommitted, rfl, henabled, hpassword⟩
        · rfl
      · rfl

theorem ingest_lastSeen {clock : Clock} {gatewayId batchId : Identifier}
    {batch : ValidatedTelemetryBatch} {committed : Bool}
    (hinside : ((Call.ingest clock gatewayId batch batchId committed).stamps deviceId).Pairwise
      (· ≤ ·)) : ∃ v,
    Latest {t | service.Refreshes db deviceId t (.ingest clock gatewayId batch batchId committed)} v ∧
      (service.step db (.ingest clock gatewayId batch batchId committed)).lastSeen deviceId =
        v.or (db.lastSeen deviceId) := by
  cases hbatch : ingestBatch service.pg clock db gatewayId batch batchId with
  | error what =>
    refine ⟨none, Set.eq_empty_iff_forall_notMem.mpr ?_, ?_⟩
    · rintro t ⟨-, response, db', hok, -⟩
      simp [hbatch] at hok
    · simp only [Service.step, hbatch, Option.none_or]
  | ok p =>
    obtain ⟨response, db'⟩ := p
    cases committed with
    | false =>
      refine ⟨none, Set.eq_empty_iff_forall_notMem.mpr ?_, ?_⟩
      · rintro t ⟨hcommitted, -⟩
        simp at hcommitted
      · simp only [Service.step, hbatch, Option.none_or, Bool.false_eq_true, if_false]
    | true =>
      obtain ⟨-, -, hsteps⟩ := ingestBatch_eq_ok hbatch
      have hset : {t | service.Refreshes db deviceId t
            (.ingest clock gatewayId batch batchId true)} =
          {t | t ∈ presenceTimes clock deviceId 0 batch.items response.results} := by
        ext t
        simp [Service.Refreshes, hbatch, mem_presenceTimes]
      have hordered : (presenceTimes clock deviceId 0 batch.items response.results).Pairwise
          (· ≤ ·) := by
        by_cases hmem : deviceId ∈ batch.deviceIds
        · exact presenceTimes_pairwise fun j k hjk hk => presence_le_of_stamps hmem hinside hjk hk
        · -- no item is about the device
          have hempty : presenceTimes clock deviceId 0 batch.items response.results = [] := by
            refine List.eq_nil_iff_forall_not_mem.mpr fun t ht => hmem ?_
            obtain ⟨index, item, -, hitem, -, rfl, -⟩ := mem_presenceTimes.mp ht
            exact List.mem_filterMap.mpr ⟨_, List.mem_of_getElem? hitem, rfl⟩
          rw [hempty]
          exact .nil
      refine ⟨(presenceTimes clock deviceId 0 batch.items response.results).getLast?, ?_, ?_⟩
      · rw [hset]
        exact latest_getLast? hordered
      · simp only [Service.step, hbatch, if_true]
        exact hsteps.lastSeen ingestion_registered

/-- A call leaves the latest time at which it refreshes, or what was there. -/
theorem step_lastSeen (hinside : (call.stamps deviceId).Pairwise (· ≤ ·)) : ∃ v,
    Latest {t | service.Refreshes db deviceId t call} v ∧
      (service.step db call).lastSeen deviceId = v.or (db.lastSeen deviceId) := by
  -- A call that refreshes nothing must leave the column alone.
  have hnever (h : ∀ t, ¬ service.Refreshes db deviceId t call)
      (hsame : (service.step db call).lastSeen deviceId = db.lastSeen deviceId) : ∃ v,
      Latest {t | service.Refreshes db deviceId t call} v ∧
        (service.step db call).lastSeen deviceId = v.or (db.lastSeen deviceId) :=
    ⟨none, Set.eq_empty_iff_forall_notMem.mpr h, by rw [hsame, Option.none_or]⟩
  cases call with
  | heartbeat sender password now committed =>
    exact heartbeat_lastSeen service sender password now committed
  | ingest clock gatewayId batch batchId committed => exact ingest_lastSeen service hinside
  | enableDevice sender enabled => exact hnever (fun _ h => h) (lastSeen_enableDevice sender enabled)
  | enableGateway gatewayId enabled => exact hnever (fun _ h => h) rfl
  | enableSite siteId enabled => exact hnever (fun _ h => h) rfl
  | list now => exact hnever (fun _ h => h) rfl

end Calls

/-! ## Whole Runs -/

section Runs

variable {service : Service} {start : Db} {calls : List Call} {call : Call}
  {deviceId : Identifier}

theorem run_concat : service.run start (calls ++ [call]) =
    service.step (service.run start calls) call := by
  rw [Service.run, List.foldl_append]
  rfl

theorem refreshed_concat {t : Time} : service.Refreshed start (calls ++ [call]) deviceId t ↔
    service.Refreshed start calls deviceId t ∨
      service.Refreshes (service.run start calls) deviceId t call := by
  unfold Service.Refreshed
  constructor
  · rintro (hstart | ⟨before, other, hearlier, hrefreshes⟩)
    · exact .inl (.inl hstart)
    · -- the refreshing call is the last one, or it was made before it
      rcases List.prefix_concat_iff.mp hearlier with hwhole | hearlier
      · obtain ⟨rfl, hcall⟩ := List.append_inj' hwhole rfl
        obtain rfl := List.singleton_inj.mp hcall
        exact .inr hrefreshes
      · exact .inl (.inr ⟨before, other, hearlier, hrefreshes⟩)
  · rintro ((hstart | ⟨before, other, hearlier, hrefreshes⟩) | hrefreshes)
    · exact .inl hstart
    · exact .inr ⟨before, other, hearlier.trans (List.prefix_append ..), hrefreshes⟩
    · exact .inr ⟨calls, call, List.prefix_refl _, hrefreshes⟩

theorem Clocked.of_prefix {before : List Call} (h : Clocked start calls) (hearlier : before <+: calls) :
    Clocked start before where
  start deviceId t ht other hother := h.start deviceId t ht other (hearlier.subset hother)
  inside deviceId other hother := h.inside deviceId other (hearlier.subset hother)
  across deviceId := (h.across deviceId).sublist hearlier.sublist

/-- No refresh is later than a reading after the run. -/
theorem Service.Refreshed.le (h : Clocked start (calls ++ [call])) {t : Time}
    (ht : service.Refreshed start calls deviceId t) : ∀ t' ∈ call.readings deviceId, t ≤ t' := by
  rcases ht with hstart | ⟨before, other, hearlier, hrefreshes⟩
  · exact h.start deviceId t hstart call (by simp)
  · have hother : other ∈ calls := hearlier.subset (by simp)
    exact (List.pairwise_append.mp (h.across deviceId)).2.2 other hother call (by simp) t
      hrefreshes.mem_stamps

theorem stamps_subset_readings {t : Time} (h : t ∈ call.stamps deviceId) :
    t ∈ call.readings deviceId := by
  cases call with
  | list now => simp [Call.stamps] at h
  | _ => exact h

/-- After a run the column holds the latest refresh. -/
theorem run_latest (h : Clocked start calls) :
    Latest {t | service.Refreshed start calls deviceId t}
      ((service.run start calls).lastSeen deviceId) := by
  induction calls using List.reverseRecOn with
  | nil =>
    have hset : {t | service.Refreshed start [] deviceId t} =
        {t | start.lastSeen deviceId = some t} := by
      ext t
      simp [Service.Refreshed]
    rw [hset]
    exact latest_option _
  | append_singleton calls call ih =>
    -- the clock has not gone back, so what the last call writes is the latest of all
    obtain ⟨v, hlatest, hstep⟩ : ∃ v,
        Latest {t | service.Refreshes (service.run start calls) deviceId t call} v ∧
          (service.step (service.run start calls) call).lastSeen deviceId =
            v.or ((service.run start calls).lastSeen deviceId) :=
      step_lastSeen service (h.inside deviceId call (by simp))
    have hset : {t | service.Refreshed start (calls ++ [call]) deviceId t} =
        {t | service.Refreshed start calls deviceId t} ∪
          {t | service.Refreshes (service.run start calls) deviceId t call} := by
      ext t
      exact refreshed_concat
    rw [run_concat, hstep, hset]
    refine (ih (h.of_prefix (List.prefix_append ..))).overwrite hlatest fun t ht t' ht' => ?_
    exact Service.Refreshed.le h ht t' (stamps_subset_readings ht'.mem_stamps)

end Runs

/-! ## The Device List -/

theorem gatewayEligibility_eq_some {db : Db} {gatewayId : Identifier} {eligibility : Bool × Bool} :
    db.gatewayEligibility gatewayId = some eligibility ↔ ∃ gateway site,
      db.gateways.find? gatewayId = some gateway ∧ db.sites.find? gateway.siteId = some site ∧
        (gateway.enabled, site.enabled) = eligibility := by
  simp [Db.gatewayEligibility, Option.bind_eq_some_iff]

theorem statusRow_eq_some {db : Db} {names : Names} {device : Device} {row : StatusRow}
    (h : db.statusRow names device = some row) : row.deviceId = device.deviceId ∧
      row.enabled = device.enabled ∧ row.lastSeenAt = device.lastSeenAt ∧
      db.gatewayEligibility device.gatewayId = some (row.gatewayEnabled, row.siteEnabled) := by
  simp only [Db.statusRow, Option.bind_eq_bind, Option.bind_eq_some_iff, Option.pure_def,
    Option.some.injEq] at h
  obtain ⟨gateway, hgateway, site, hsite, rfl⟩ := h
  exact ⟨rfl, rfl, rfl, gatewayEligibility_eq_some.mpr ⟨gateway, site, hgateway, hsite, rfl⟩⟩

theorem statusRow_of_eligibility {db : Db} {device : Device} {eligibility : Bool × Bool}
    (names : Names) (h : db.gatewayEligibility device.gatewayId = some eligibility) :
    ∃ row, db.statusRow names device = some row := by
  obtain ⟨gateway, site, hgateway, hsite, -⟩ := gatewayEligibility_eq_some.mp h
  simp [Db.statusRow, hgateway, hsite]

/-- The list shows a device online if it is enabled and its column lies in the window. -/
theorem reportedOnline_iff {db : Db} {names : Names} {now : Time} {deviceId : Identifier} :
    db.ReportedOnline names now deviceId ↔ db.Enabled deviceId ∧ ∃ t,
      db.lastSeen deviceId = some t ∧ now - onlineWindow ≤ t ∧ t ≤ now := by
  unfold Db.ReportedOnline listDeviceStatus Db.listStatusRows
  constructor
  · rintro ⟨status, hstatus, hdevice, honline⟩
    obtain ⟨row, hrow, rfl⟩ := List.mem_map.mp hstatus
    -- the row listed is the join of the device with its gateway and site
    obtain ⟨device, hmem, hjoin⟩ := List.mem_filterMap.mp (List.mem_mergeSort.mp hrow)
    obtain ⟨hid, henabled, hseen, heligible⟩ := statusRow_eq_some hjoin
    have hfind : db.devices.find? deviceId = some device :=
      Table.find?_eq_some.mpr ⟨hmem, hid.symm.trans hdevice⟩
    simp only [StatusRow.status, Bool.and_eq_true, Option.any_eq_true, decide_eq_true_eq] at honline
    obtain ⟨⟨⟨hrowEnabled, hgateway⟩, hsite⟩, t, ht, hwindow⟩ := honline
    refine ⟨⟨device, hfind, henabled ▸ hrowEnabled, ?_⟩, t, ?_, hwindow⟩
    · rw [heligible, hgateway, hsite]
    · rw [Db.lastSeen, hfind, Option.bind_some, ← hseen, ht]
  · rintro ⟨⟨device, hfind, henabled, heligible⟩, t, ht, hwindow⟩
    obtain ⟨hmem, hid⟩ := Table.find?_eq_some.mp hfind
    obtain ⟨row, hrow⟩ := statusRow_of_eligibility names heligible
    obtain ⟨hrowId, hrowEnabled, hseen, hflags⟩ := statusRow_eq_some hrow
    rw [heligible] at hflags
    obtain ⟨hgateway, hsite⟩ := Prod.mk.inj (Option.some.inj hflags)
    refine ⟨row.status now, List.mem_map.mpr ⟨row, List.mem_mergeSort.mpr
      (List.mem_filterMap.mpr ⟨device, hmem, hrow⟩), rfl⟩, hrowId.trans hid, ?_⟩
    rw [Db.lastSeen, hfind, Option.bind_some] at ht
    simp only [StatusRow.status, hrowEnabled, henabled, ← hgateway, ← hsite, hseen, ht,
      Bool.and_self, Bool.true_and, Option.any_some, Bool.and_eq_true, decide_eq_true_eq]
    exact hwindow

/-! ## Soundness -/

theorem enabled_iff {db : Db} {deviceId : Identifier} : db.Enabled deviceId ↔ ∃ gatewayId,
    db.assignment deviceId = some (gatewayId, true) ∧
      db.gatewayEligibility gatewayId = some (true, true) := by
  unfold Db.Enabled Db.assignment
  cases db.devices.find? deviceId with
  | none => simp
  | some device => simp

theorem SameRegistry.enabled_iff {db db' : Db} (h : SameRegistry db db') {deviceId : Identifier} :
    db'.Enabled deviceId ↔ db.Enabled deviceId := by
  simp only [Backend.enabled_iff, h.assignments, h.gatewayEligibility]

/-- A batch leaves the registry alone. -/
theorem sameRegistry_ingest (service : Service) (db : Db) (clock : Clock)
    (gatewayId : Identifier) (batch : ValidatedTelemetryBatch) (batchId : Identifier)
    (committed : Bool) :
    SameRegistry db (service.step db (.ingest clock gatewayId batch batchId committed)) := by
  cases hbatch : ingestBatch service.pg clock db gatewayId batch batchId with
  | error what =>
    simp only [Service.step, hbatch]
    exact .refl db
  | ok p =>
    obtain ⟨response, db'⟩ := p
    obtain ⟨-, -, hsteps⟩ := ingestBatch_eq_ok hbatch
    simp only [Service.step, hbatch]
    split
    · exact hsteps.sameRegistry
    · exact .refl db

/-- Every reading of the run in its order, as one clock gave them. -/
def Call.clockReadings : Call → List Time
  | .heartbeat _ _ now _ | .list now => [now]
  | .ingest clock _ batch _ _ => (List.range batch.items.length).flatMap fun index =>
      [clock.insertion index, clock.presence index]
  | _ => []

theorem stamps_sublist (call : Call) (deviceId : Identifier) :
    (call.stamps deviceId).Sublist call.clockReadings := by
  cases call with
  | heartbeat sender password now committed =>
    by_cases hself : sender = deviceId
    · simp [Call.stamps, Call.clockReadings, hself]
    · simp [Call.stamps, Call.clockReadings, hself]
  | ingest clock gatewayId batch batchId committed =>
    by_cases hmem : deviceId ∈ batch.deviceIds
    · rw [Call.stamps, if_pos hmem, Call.clockReadings]
    · rw [Call.stamps, if_neg hmem]
      exact List.nil_sublist _
  | _ => exact List.nil_sublist _

theorem readings_sublist (call : Call) (deviceId : Identifier) :
    (call.readings deviceId).Sublist call.clockReadings := by
  have hstamps := stamps_sublist call deviceId
  cases call with
  | list now => exact List.Sublist.refl _
  | _ => exact hstamps

/-- One clock that does not go back, and that is not behind the times in the registry. -/
theorem clocked_of_readings {start : Db} {calls : List Call}
    (hclock : (calls.flatMap Call.clockReadings).Pairwise (· ≤ ·))
    (hstart : ∀ deviceId t, start.lastSeen deviceId = some t →
      ∀ t' ∈ calls.flatMap Call.clockReadings, t ≤ t') : Clocked start calls where
  start deviceId t ht call hcall t' ht' :=
    hstart deviceId t ht t' (List.mem_flatMap.mpr
      ⟨call, hcall, (readings_sublist call deviceId).subset ht'⟩)
  inside deviceId call hcall :=
    ((List.pairwise_flatMap.mp hclock).1 call hcall).sublist (stamps_sublist call deviceId)
  across deviceId := (List.pairwise_flatMap.mp hclock).2.imp fun h t ht t' ht' =>
    h t ((stamps_sublist _ deviceId).subset ht) t' ((readings_sublist _ deviceId).subset ht')

/-- At every call of a run: the column does not decrease; it changes only by a refresh, and by every
refresh; a device list shows exactly those online that are enabled and were refreshed in the last 90
seconds; and a batch that refreshes nothing of a device makes no difference to it. -/
theorem presence_sound (service : Service) (names : Names) {start : Db} {calls : List Call}
    (h : Clocked start calls) {before : List Call} {call : Call}
    (hearlier : before ++ [call] <+: calls) (deviceId : Identifier) :
    (∀ t, (service.run start before).lastSeen deviceId = some t →
      ∃ t', (service.run start (before ++ [call])).lastSeen deviceId = some t' ∧ t ≤ t') ∧
    ((service.run start (before ++ [call])).lastSeen deviceId ≠
        (service.run start before).lastSeen deviceId →
      ∃ t, service.Refreshes (service.run start before) deviceId t call ∧
        (service.run start (before ++ [call])).lastSeen deviceId = some t) ∧
    (∀ t, service.Refreshes (service.run start before) deviceId t call →
      ∃ t', service.Refreshes (service.run start before) deviceId t' call ∧ t ≤ t' ∧
        (service.run start (before ++ [call])).lastSeen deviceId = some t') ∧
    (∀ now, call = .list now →
      ((service.run start before).ReportedOnline names now deviceId ↔
        (service.run start before).Enabled deviceId ∧ ∃ t,
          service.Refreshed start before deviceId t ∧ now - onlineWindow ≤ t ∧ t ≤ now)) ∧
    ∀ clock gatewayId batch batchId committed,
      call = .ingest clock gatewayId batch batchId committed →
      (∀ t, ¬ service.Refreshes (service.run start before) deviceId t call) →
      ∀ now, (service.run start (before ++ [call])).ReportedOnline names now deviceId ↔
        (service.run start before).ReportedOnline names now deviceId := by
  have hclocked : Clocked start (before ++ [call]) := h.of_prefix hearlier
  have hlatest : Latest {t | service.Refreshed start before deviceId t}
      ((service.run start before).lastSeen deviceId) :=
    run_latest (hclocked.of_prefix (List.prefix_append ..))
  obtain ⟨v, hv, hstep⟩ : ∃ v,
      Latest {t | service.Refreshes (service.run start before) deviceId t call} v ∧
        (service.step (service.run start before) call).lastSeen deviceId =
          v.or ((service.run start before).lastSeen deviceId) :=
    step_lastSeen service (hclocked.inside deviceId call (by simp))
  have hle {t t' : Time} (ht : service.Refreshed start before deviceId t)
      (ht' : t' ∈ call.readings deviceId) : t ≤ t' := ht.le hclocked t' ht'
  rw [run_concat]
  refine ⟨fun t ht => ?_, fun hchanged => ?_, fun t ht => ?_, ?_, ?_⟩
  · -- an overwriting stamp was read while the row was locked, after the one it overwrites
    rw [hstep, ht]
    cases v with
    | none => exact ⟨t, rfl, le_rfl⟩
    | some t' =>
      have hseen : service.Refreshed start before deviceId t := by
        rw [ht] at hlatest
        exact hlatest.mem
      exact ⟨t', rfl, hle hseen (stamps_subset_readings hv.mem.mem_stamps)⟩
  · cases v with
    | none => exact absurd hstep hchanged
    | some t => exact ⟨t, hv.mem, hstep⟩
  · cases v with
    | none =>
      have hempty : t ∈ (∅ : Set Time) := (show _ = ∅ from hv) ▸ ht
      exact absurd hempty (Set.notMem_empty t)
    | some t' => exact ⟨t', hv.mem, hv.le ht, hstep⟩
  · rintro now rfl
    rw [reportedOnline_iff, hlatest.window_iff fun t ht => hle ht (by simp [Call.readings])]
    rfl
  · rintro clock gatewayId batch batchId committed rfl hnever now
    have hsame := sameRegistry_ingest service (service.run start before) clock gatewayId batch
      batchId committed
    have hnone : v = none := by
      cases v with
      | none => rfl
      | some t => exact absurd hv.mem (hnever t)
    rw [reportedOnline_iff, reportedOnline_iff, hsame.enabled_iff, hstep, hnone, Option.none_or]

def sampleService : Service := ⟨exactColumn, .plain, fun _ => some (ascii "long-password")⟩

/-- A heartbeat, and a device list ten seconds later. -/
def sampleCalls : List Call :=
  [.heartbeat sampleDevice (ascii "long-password") 0 true, .list (microseconds 10)]

theorem sampleCalls_clocked : Clocked sampleDb sampleCalls := by
  refine clocked_of_readings (by decide) fun deviceId t ht => ?_
  simp only [Db.lastSeen, Option.bind_eq_some_iff] at ht
  obtain ⟨device, hfind, hseen⟩ := ht
  obtain rfl := List.mem_singleton.mp (Table.find?_eq_some.mp hfind).1
  simp at hseen

theorem sampleHeartbeat_refreshes : sampleService.Refreshes sampleDb sampleDevice 0
    (.heartbeat sampleDevice (ascii "long-password") 0 true) :=
  ⟨rfl, rfl, rfl, ⟨⟨sampleDevice, sampleGateway, true, none⟩, by decide, rfl, by decide⟩, by decide⟩

def sampleNames : Names := ⟨fun _ => [], fun _ _ => true⟩

theorem presence_sample : (sampleService.run sampleDb
      [.heartbeat sampleDevice (ascii "long-password") 0 true]).ReportedOnline sampleNames
        (microseconds 10) sampleDevice := by
  have hearlier : [Call.heartbeat sampleDevice (ascii "long-password") 0 true] ++
      [Call.list (microseconds 10)] <+: sampleCalls := List.prefix_refl _
  have hsound := presence_sound sampleService sampleNames sampleCalls_clocked hearlier sampleDevice
  refine (hsound.2.2.2.1 _ rfl).mpr ⟨?_, 0, .inr ⟨[], _, ?_, sampleHeartbeat_refreshes⟩, ?_⟩
  · exact ⟨⟨sampleDevice, sampleGateway, true, some 0⟩, by decide, rfl, by decide⟩
  · exact List.prefix_refl _
  · decide

end EquipmentMonitoring.Backend
