import EquipmentMonitoring.Backend.ReadModels
import EquipmentMonitoring.Backend.Replay

/-!
# Read Models and the Order of Arrival

Gateways deliver late, in any order and in any batches. The read models show event times only, so
they depend on which events were accepted, and not on when.

## Key Results

- `Accepts.contents`: the rows a run leaves, but for their ids and receipt times
- `newestReadings_content`: what is read of them, if no two events of a device share their time
- `read_models_order_independent`: two runs that accept the same events show the same
-/

namespace EquipmentMonitoring.Backend

/-! ## Sorting -/

/-- A list has one sorted order when no two elements tie. -/
theorem mergeSort_eq_of_perm {α : Type} {le : α → α → Bool}
    (htrans : ∀ a b c, le a b → le b c → le a c) (htotal : ∀ a b, le a b || le b a) {l l' : List α}
    (hanti : ∀ a ∈ l, ∀ b ∈ l, le a b → le b a → a = b) (h : l.Perm l') :
    l.mergeSort le = l'.mergeSort le := by
  have hperm : (l.mergeSort le).Perm (l'.mergeSort le) :=
    (List.mergeSort_perm l le).trans (h.trans (List.mergeSort_perm l' le).symm)
  have hsorted (xs : List α) : (xs.mergeSort le).Pairwise fun a b => le a b = true :=
    List.pairwise_mergeSort htrans htotal xs
  refine hperm.eq_of_pairwise ?_ (hsorted l) (hsorted l')
  intro a b ha hb
  rw [List.mem_mergeSort] at ha hb
  exact hanti a ha b (h.symm.subset hb)

/-- The first element of a sorted list comes before all others. -/
theorem head?_mergeSort_eq_some {α : Type} {le : α → α → Bool}
    (htrans : ∀ a b c, le a b → le b c → le a c) (htotal : ∀ a b, le a b || le b a) {l : List α}
    (hanti : ∀ a ∈ l, ∀ b ∈ l, le a b → le b a → a = b) {a : α} :
    (l.mergeSort le).head? = some a ↔ a ∈ l ∧ ∀ b ∈ l, le a b := by
  have hrefl (x : α) : le x x = true := by simpa using htotal x x
  -- The head of a sorted list comes before all the others.
  have hfirst {x : α} (hx : (l.mergeSort le).head? = some x) : x ∈ l ∧ ∀ b ∈ l, le x b := by
    obtain ⟨rest, hrest⟩ := List.head?_eq_some_iff.mp hx
    have hsorted := List.pairwise_mergeSort htrans htotal l
    have hmem : ∀ b, b ∈ l ↔ b ∈ x :: rest := fun b => by rw [← hrest, List.mem_mergeSort]
    rw [hrest, List.pairwise_cons] at hsorted
    refine ⟨(hmem x).mpr (List.mem_cons_self ..), fun b hb => ?_⟩
    rcases List.mem_cons.mp ((hmem b).mp hb) with rfl | hb
    · exact hrefl b
    · exact hsorted.1 b hb
  refine ⟨hfirst, fun ⟨ha, hle⟩ => ?_⟩
  cases hhead : (l.mergeSort le).head? with
  | none =>
    rw [List.head?_eq_none_iff] at hhead
    have hnil : a ∈ l.mergeSort le := List.mem_mergeSort.mpr ha
    rw [hhead] at hnil
    exact absurd hnil List.not_mem_nil
  | some x =>
    obtain ⟨hx, hbefore⟩ := hfirst hhead
    rw [hanti x hx a ha (hbefore a ha) (hle x hx)]

/-! ## The Newest Reading -/

section Newest

variable {db : Db} {deviceId : Identifier} {condition : Telemetry → Bool} {r r' : Telemetry}

theorem newestFirst_iff :
    newestFirst r r' = true ↔ r'.eventAt < r.eventAt ∨ r.eventAt = r'.eventAt ∧ r'.id ≤ r.id := by
  simp [newestFirst]

theorem newestFirst_trans (a b c : Telemetry) (hab : newestFirst a b = true)
    (hbc : newestFirst b c = true) : newestFirst a c = true := by
  rw [newestFirst_iff] at *
  rcases hab with hab | ⟨hab, hid⟩
  · rcases hbc with hbc | ⟨hbc, -⟩
    · exact .inl (hbc.trans hab)
    · exact .inl (hbc ▸ hab)
  · rcases hbc with hbc | ⟨hbc, hid'⟩
    · exact .inl (hab ▸ hbc)
    · exact .inr ⟨hab.trans hbc, hid'.trans hid⟩

theorem newestFirst_total (a b : Telemetry) : (newestFirst a b || newestFirst b a) = true := by
  rw [Bool.or_eq_true, newestFirst_iff, newestFirst_iff]
  rcases lt_trichotomy a.eventAt b.eventAt with hlt | heq | hgt
  · exact .inr (.inl hlt)
  · exact (le_total b.id a.id).imp (fun hid => .inr ⟨heq, hid⟩) fun hid => .inr ⟨heq.symm, hid⟩
  · exact .inl (.inl hgt)

theorem mem_readings :
    (r ∈ db.telemetry.rows.filter fun row => decide (row.deviceId = deviceId) && condition row) ↔
      r ∈ db.telemetry ∧ r.deviceId = deviceId ∧ condition r = true := by
  rw [List.mem_filter, Bool.and_eq_true, decide_eq_true_eq, Table.mem_def]

/-- Row ids break every tie. -/
theorem newestFirst_antisymm (hr : r ∈ db.telemetry) (hr' : r' ∈ db.telemetry)
    (h : newestFirst r r' = true) (h' : newestFirst r' r = true) : r = r' := by
  rw [newestFirst_iff] at h h'
  have hid : r.id = r'.id := by
    rcases h with hlt | ⟨heq, hid⟩
    · rcases h' with hgt | ⟨heq, -⟩
      · exact absurd hlt hgt.not_gt
      · exact absurd heq.symm hlt.ne'
    · rcases h' with hgt | ⟨-, hid'⟩
      · exact absurd heq hgt.ne
      · exact le_antisymm hid' hid
  exact List.inj_on_of_nodup_map db.telemetry_ids hr hr' hid

theorem newest_eq_some :
    (db.newestReadings deviceId condition).head? = some r ↔
      (r ∈ db.telemetry ∧ r.deviceId = deviceId ∧ condition r = true) ∧
        ∀ r' ∈ db.telemetry, r'.deviceId = deviceId → condition r' = true →
          newestFirst r r' = true := by
  have hanti : ∀ a ∈ db.telemetry.rows.filter fun row =>
      decide (row.deviceId = deviceId) && condition row, ∀ b ∈ db.telemetry.rows.filter fun row =>
      decide (row.deviceId = deviceId) && condition row,
      newestFirst a b = true → newestFirst b a = true → a = b := fun a ha b hb =>
    newestFirst_antisymm (mem_readings.mp ha).1 (mem_readings.mp hb).1
  rw [Db.newestReadings, head?_mergeSort_eq_some newestFirst_trans newestFirst_total hanti]
  simp only [mem_readings, and_imp]

end Newest

/-! ## What is Read of a Row -/

/-- A row without what depends on its arrival. -/
def Telemetry.content (row : Telemetry) : Telemetry := { row with id := 0, backendReceivedAt := 0 }

@[simp] theorem content_deviceId (row : Telemetry) : row.content.deviceId = row.deviceId := rfl

@[simp] theorem content_eventAt (row : Telemetry) : row.content.eventAt = row.eventAt := rfl

/-- What must differ between any two events. -/
def Telemetry.deviceTime (row : Telemetry) : Identifier × Time := (row.deviceId, row.eventAt)

def TelemetryEvent.deviceTime (item : TelemetryEvent) : Identifier × Time :=
  (item.deviceId, item.eventAt)

/-- No two readings of a device share their time. -/
def Db.DistinctTimes (db : Db) : Prop := (db.telemetry.rows.map Telemetry.deviceTime).Nodup

/-- Later first. -/
def laterFirst (r r' : Telemetry) : Bool := decide (r'.eventAt ≤ r.eventAt)

section Content

variable {db : Db} {deviceId : Identifier} {condition : Telemetry → Bool}

theorem Db.DistinctTimes.eq (h : db.DistinctTimes) {r r' : Telemetry} (hr : r ∈ db.telemetry)
    (hr' : r' ∈ db.telemetry) (hdevice : r.deviceId = r'.deviceId) (htime : r.eventAt = r'.eventAt) :
    r = r' :=
  List.inj_on_of_nodup_map h hr hr' (Prod.ext hdevice htime)

/-- Without ties, the contents of the readings determine what is read. -/
theorem newestReadings_content (h : db.DistinctTimes)
    (hcondition : ∀ r, condition r.content = condition r) :
    (db.newestReadings deviceId condition).map Telemetry.content =
      ((db.telemetry.rows.map Telemetry.content).filter fun row =>
        decide (row.deviceId = deviceId) && condition row).mergeSort laterFirst := by
  rw [Db.newestReadings, List.map_mergeSort (s := laterFirst), List.filter_map]
  · simp only [Function.comp_def, content_deviceId, hcondition]
    rfl
  · intro a ha b hb
    obtain ⟨ha, hda, -⟩ := mem_readings.mp ha
    obtain ⟨hb, hdb, -⟩ := mem_readings.mp hb
    rw [Bool.eq_iff_iff, newestFirst_iff, laterFirst, decide_eq_true_eq, content_eventAt,
      content_eventAt]
    constructor
    · rintro (hlt | ⟨heq, -⟩)
      · exact hlt.le
      · exact heq.ge
    · intro hle
      rcases hle.lt_or_eq with hlt | heq
      · exact .inl hlt
      · -- two readings of one time are one
        obtain rfl := h.eq ha hb (hda.trans hdb.symm) heq.symm
        exact .inr ⟨rfl, le_rfl⟩

theorem newestReadings_eq {db' : Db} (h : db.DistinctTimes) (h' : db'.DistinctTimes)
    (hcondition : ∀ r, condition r.content = condition r)
    (hperm : (db.telemetry.rows.map Telemetry.content).Perm
      (db'.telemetry.rows.map Telemetry.content)) :
    (db.newestReadings deviceId condition).map Telemetry.content =
      (db'.newestReadings deviceId condition).map Telemetry.content := by
  rw [newestReadings_content h hcondition, newestReadings_content h' hcondition]
  refine mergeSort_eq_of_perm (fun a b c => ?_) (fun a b => ?_) (fun a ha b hb hab hba => ?_)
    (hperm.filter _)
  · simp only [laterFirst, decide_eq_true_eq]
    exact fun hab hbc => hbc.trans hab
  · simp only [laterFirst, Bool.or_eq_true, decide_eq_true_eq]
    exact le_total _ _
  · simp only [List.mem_filter, List.mem_map, Bool.and_eq_true, decide_eq_true_eq] at ha hb
    -- two readings of one device at one time are one row
    obtain ⟨⟨r, hr, rfl⟩, hdr, -⟩ := ha
    obtain ⟨⟨r', hr', rfl⟩, hdr', -⟩ := hb
    rw [h.eq hr hr' (hdr.trans hdr'.symm)
      (le_antisymm (of_decide_eq_true hba) (of_decide_eq_true hab))]

end Content

/-! ## Accepted Events -/

/-- The events of a batch that its response accepts. -/
def acceptedEvents : List BatchItem → List TelemetryResponseItem → List TelemetryEvent
  | .event item :: items, result :: results =>
    if result.outcome = .accepted then item :: acceptedEvents items results
    else acceptedEvents items results
  | .response _ :: items, _ :: results => acceptedEvents items results
  | _, _ => []

/-- Batches that commit one after the other, with the events they accept. -/
inductive Accepts (pg : NumericColumn) : Db → List TelemetryEvent → Db → Prop
  | refl (db : Db) : Accepts pg db [] db
  | step {db db₁ db₂ : Db} {events : List TelemetryEvent} {clock : Clock}
      {gatewayId batchId : Identifier} {batch : ValidatedTelemetryBatch}
      {response : TelemetryBatchResponse} (run : Accepts pg db events db₁)
      (last : ingestBatch pg clock db₁ gatewayId batch batchId = .ok (response, db₂)) :
      Accepts pg db (events ++ acceptedEvents batch.items response.results) db₂

/-- The row of an event, without what depends on its arrival. -/
def TelemetryEvent.content (pg : NumericColumn) (item : TelemetryEvent) : Telemetry :=
  .ofEvent 0 .v1 item ((pg.store item.value).getD item.value) 0

/-- A device without its presence. -/
def Device.registration (d : Device) : Device := { d with lastSeenAt := none }

/-- What a run leaves of the tables that the read models read. -/
structure Leaves (pg : NumericColumn) (db : Db) (events : List TelemetryEvent) (db' : Db) : Prop where
  sites : db'.sites = db.sites
  gateways : db'.gateways = db.gateways
  devices : db'.devices.rows.map Device.registration = db.devices.rows.map Device.registration
  telemetry : db'.telemetry.rows.map Telemetry.content =
    db.telemetry.rows.map Telemetry.content ++ events.map (TelemetryEvent.content pg)

section Accepted

variable {pg : NumericColumn} {db db₁ db₂ db' : Db} {events more : List TelemetryEvent}

theorem Leaves.refl (db : Db) : Leaves pg db [] db :=
  ⟨rfl, rfl, rfl, by simp⟩

theorem Leaves.trans (h : Leaves pg db events db₁) (h' : Leaves pg db₁ more db₂) :
    Leaves pg db (events ++ more) db₂ := by
  refine ⟨h'.sites.trans h.sites, h'.gateways.trans h.gateways, h'.devices.trans h.devices, ?_⟩
  rw [h'.telemetry, h.telemetry, List.map_append, List.append_assoc]

theorem registration_recordPresence (db : Db) (deviceId : Identifier) (seenAt : Time) :
    (db.recordPresence deviceId seenAt).devices.rows.map Device.registration =
      db.devices.rows.map Device.registration := by
  simp only [Db.recordPresence, Table.update, List.map_map]
  refine List.map_congr_left fun d _ => ?_
  simp only [Function.comp_apply]
  split <;> rfl

theorem leaves_present (item : TelemetryEvent) (t seenAt : Time) :
    Leaves pg db [] (db.present item t seenAt) := by
  unfold Db.present
  split
  · exact ⟨rfl, rfl, registration_recordPresence .., by simp [Db.recordPresence]⟩
  · exact .refl db

/-- One item adds the row of its event when it is accepted, and none otherwise. -/
theorem ItemStep.leaves {i : Ingestion} {index : Nat} {item : BatchItem}
    {result : TelemetryResponseItem} (h : ItemStep .any i index db item result db') :
    Leaves i.pg db (acceptedEvents [item] [result]) db' := by
  cases h with
  | response => exact .refl db
  | refused => exact .refl db
  | dataError => exact .refl db
  | duplicate => exact ⟨rfl, rfl, rfl, by simp [acceptedEvents, Db.burn, TelemetryResponseItem.confirmed]⟩
  | conflict => exact ⟨rfl, rfl, rfl, by simp [acceptedEvents, Db.burn, TelemetryResponseItem.rejected]⟩
  | @accepted item value row db₁ alerts hrefusal hvalue hinsert =>
    obtain ⟨hrow, -, hrows, -, hsites, hgateways, hdevices, -⟩ := insertTelemetry_some hinsert
    -- what is stored of an event does not depend on when it arrives
    have hcontent : row.content = item.content i.pg := by
      rw [hrow, TelemetryEvent.content, hvalue]
      rfl
    have hinserted : Leaves i.pg db [item] (db₁.withAlerts alerts) := by
      refine ⟨hsites, hgateways, ?_, ?_⟩
      · rw [show (db₁.withAlerts alerts).devices = db₁.devices from rfl, hdevices]
      · rw [show (db₁.withAlerts alerts).telemetry.rows = _ from hrows, List.map_append,
          List.map_singleton, List.map_singleton, hcontent]
    exact hinserted.trans (leaves_present ..)

theorem acceptedEvents_cons (item : BatchItem) (items : List BatchItem)
    (result : TelemetryResponseItem) (results : List TelemetryResponseItem) :
    acceptedEvents (item :: items) (result :: results) =
      acceptedEvents [item] [result] ++ acceptedEvents items results := by
  cases item with
  | event item =>
    simp only [acceptedEvents]
    split <;> rfl
  | response => rfl

theorem ItemSteps.leaves {i : Ingestion} {index : Nat} {items : List BatchItem}
    {results : List TelemetryResponseItem} (h : ItemSteps .any i index db items results db') :
    Leaves i.pg db (acceptedEvents items results) db' := by
  induction h with
  | nil => exact .refl _
  | cons head _ ih =>
    rw [acceptedEvents_cons]
    exact head.leaves.trans ih

theorem Accepts.leaves (h : Accepts pg db events db') : Leaves pg db events db' := by
  induction h with
  | refl => exact .refl _
  | step _ last ih =>
    obtain ⟨-, -, hsteps⟩ := ingestBatch_eq_ok last
    exact ih.trans hsteps.leaves

/-- Distinct times of the events are distinct times of the rows. -/
theorem Leaves.distinctTimes (h : Leaves pg db events db')
    (hdistinct : (db.telemetry.rows.map Telemetry.deviceTime ++
      events.map TelemetryEvent.deviceTime).Nodup) : db'.DistinctTimes := by
  have htimes := congrArg (List.map Telemetry.deviceTime) h.telemetry
  rw [List.map_append, List.map_map, List.map_map, List.map_map] at htimes
  rw [Db.DistinctTimes]
  exact (show db'.telemetry.rows.map Telemetry.deviceTime = _ from htimes) ▸ hdistinct

end Accepted

/-! ## What is Shown -/

/-- A device as listed, but for its presence. -/
def DeviceStatus.reading (s : DeviceStatus) : DeviceStatus :=
  { s with online := false, lastSeenAt := none }

/-- A row of the device list, without what depends on the arrival of events. -/
def StatusRow.content (row : StatusRow) : StatusRow :=
  { row with lastSeenAt := none, latest := row.latest.map Telemetry.content }

section Shown

variable {db db' : Db}

theorem HistoryPoint.ofRow_content (previous : Option Telemetry) (row : Telemetry) :
    HistoryPoint.ofRow (previous.map Telemetry.content) row.content =
      HistoryPoint.ofRow previous row := by
  cases previous <;> rfl

theorem historyPoints_content (previous : Option Telemetry) (rows : List Telemetry) :
    historyPoints (previous.map Telemetry.content) (rows.map Telemetry.content) =
      historyPoints previous rows := by
  induction rows generalizing previous with
  | nil => rfl
  | cons row rest ih =>
    rw [List.map_cons, historyPoints, historyPoints, HistoryPoint.ofRow_content]
    exact congrArg _ (ih (some row))

/-- The history shows the contents of the rows. -/
theorem readDeviceHistory_congr {deviceId : Identifier} {rangeStart rangeEnd : Option Time}
    (hdevice : db.hasDevice deviceId = db'.hasDevice deviceId)
    (hrows : ∀ condition : Telemetry → Bool, (∀ r, condition r.content = condition r) →
      (db.newestReadings deviceId condition).map Telemetry.content =
        (db'.newestReadings deviceId condition).map Telemetry.content) :
    readDeviceHistory db deviceId rangeStart rangeEnd =
      readDeviceHistory db' deviceId rangeStart rangeEnd := by
  unfold readDeviceHistory
  split
  · next rangeStart rangeEnd =>
    -- One row more than the maximum is read: its presence alone decides the truncation flag.
    have hread : (db.readHistoryRows deviceId rangeStart rangeEnd (maxPoints + 1)).map
        Telemetry.content =
          (db'.readHistoryRows deviceId rangeStart rangeEnd (maxPoints + 1)).map
            Telemetry.content := by
      rw [Db.readHistoryRows, Db.readHistoryRows, List.map_take, List.map_take,
        hrows _ fun r => rfl]
    have hlength := congrArg List.length hread
    rw [List.length_map, List.length_map] at hlength
    have hpoints := congrArg (fun rows => historyPoints none (rows.take maxPoints).reverse) hread
    simp only [← List.map_take, ← List.map_reverse] at hpoints
    have hshown (rows : List Telemetry) := historyPoints_content none rows
    rw [Option.map_none] at hshown
    rw [hshown, hshown] at hpoints
    rw [hdevice]
    simp only [hlength, hpoints]
  · rfl

theorem map_statusRow_congr (names : Names) (hsites : db.sites = db'.sites)
    (hgateways : db.gateways = db'.gateways)
    (hrows : ∀ deviceId, (db.newestReadings deviceId fun _ => true).map Telemetry.content =
      (db'.newestReadings deviceId fun _ => true).map Telemetry.content) (d : Device) :
    (db.statusRow names d).map StatusRow.content =
      (db'.statusRow names d.registration).map StatusRow.content := by
  have hlatest := congrArg List.head? (hrows d.deviceId)
  rw [List.head?_map, List.head?_map] at hlatest
  simp only [Db.statusRow, hsites, hgateways, Device.registration]
  cases db'.gateways.find? d.gatewayId with
  | none => rfl
  | some gateway =>
    cases hsite : db'.sites.find? gateway.siteId with
    | none => simp [hsite]
    | some site => simp [hsite, StatusRow.content, hlatest]

/-- The device list shows the registry and the contents of the newest readings. -/
theorem listDeviceStatus_congr (names : Names) (now now' : Time) (hsites : db.sites = db'.sites)
    (hgateways : db.gateways = db'.gateways)
    (hdevices : db.devices.rows.map Device.registration =
      db'.devices.rows.map Device.registration)
    (hrows : ∀ deviceId, (db.newestReadings deviceId fun _ => true).map Telemetry.content =
      (db'.newestReadings deviceId fun _ => true).map Telemetry.content) :
    (listDeviceStatus db names now).map DeviceStatus.reading =
      (listDeviceStatus db' names now').map DeviceStatus.reading := by
  have hstatus (now : Time) (row : StatusRow) :
      (row.status now).reading = (row.content.status 0).reading := by
    simp only [StatusRow.status, StatusRow.content, DeviceStatus.reading, Option.map_map]
    rfl
  -- The sort key is carried by the content, so sorting commutes with forgetting arrival.
  have hlist (db : Db) (now : Time) : (listDeviceStatus db names now).map DeviceStatus.reading =
      (((db.devices.rows.filterMap (db.statusRow names)).map StatusRow.content).mergeSort
        names.before).map fun row => (row.status 0).reading := by
    rw [listDeviceStatus, Db.listStatusRows, List.map_map,
      ← List.map_mergeSort (r := names.before) (s := names.before) (f := StatusRow.content)
        (fun _ _ _ _ => rfl), List.map_map]
    exact List.map_congr_left fun row _ => hstatus now row
  rw [hlist, hlist, List.map_filterMap, List.map_filterMap]
  -- Both lists become one filter over the registrations, which the two databases share.
  have hjoin : db.devices.rows.filterMap (fun d => (db.statusRow names d).map StatusRow.content) =
      (db.devices.rows.map Device.registration).filterMap
        fun d => (db'.statusRow names d).map StatusRow.content := by
    rw [List.filterMap_map]
    exact List.filterMap_congr fun d _ => map_statusRow_congr names hsites hgateways hrows d
  have hjoin' : db'.devices.rows.filterMap (fun d => (db'.statusRow names d).map StatusRow.content) =
      (db'.devices.rows.map Device.registration).filterMap
        fun d => (db'.statusRow names d).map StatusRow.content := by
    rw [List.filterMap_map]
    exact List.filterMap_congr fun d _ =>
      map_statusRow_congr names rfl rfl (fun _ => rfl) d
  rw [hjoin, hjoin', hdevices]

/-- A listed device has its newest reading. -/
theorem latestReading_of_mem {names : Names} {now : Time} {s : DeviceStatus}
    (h : s ∈ listDeviceStatus db names now) :
    s.latestReading = (db.newestReadings s.deviceId fun _ => true).head?.map .ofRow := by
  obtain ⟨row, hrow, rfl⟩ := List.mem_map.mp h
  obtain ⟨d, -, hd⟩ := List.mem_filterMap.mp (List.mem_mergeSort.mp hrow)
  simp only [Db.statusRow, Option.bind_eq_bind, Option.bind_eq_some_iff, Option.pure_def,
    Option.some.injEq] at hd
  obtain ⟨gateway, -, site, -, rfl⟩ := hd
  rfl

/-- The device's gateway and site are registered, as foreign keys have it. -/
def Db.Joined (db : Db) (d : Device) : Prop :=
  ∃ gateway ∈ db.gateways, gateway.gatewayId = d.gatewayId ∧
    ∃ site ∈ db.sites, site.siteId = gateway.siteId

/-- Every device that is joined is listed. -/
theorem exists_listed {d : Device} (hd : d ∈ db.devices) (h : db.Joined d) (names : Names)
    (now : Time) : ∃ s ∈ listDeviceStatus db names now, s.deviceId = d.deviceId := by
  obtain ⟨gateway, hgateway, hof, site, hsite, hat⟩ := h
  have hrow : ∃ row, db.statusRow names d = some row ∧ row.deviceId = d.deviceId := by
    simp only [Db.statusRow, Table.find?_eq_some.mpr ⟨hgateway, hof⟩,
      Table.find?_eq_some.mpr ⟨hsite, hat⟩, Option.bind_eq_bind, Option.bind_some, Option.pure_def]
    exact ⟨_, rfl, rfl⟩
  obtain ⟨row, hrow, hdevice⟩ := hrow
  refine ⟨row.status now, List.mem_map_of_mem (List.mem_mergeSort.mpr ?_), hdevice⟩
  exact List.mem_filterMap.mpr ⟨d, hd, hrow⟩

/-- What is shown of a device, if these are the contents of its readings and of others: the newest
reading, if there is one. -/
structure ShowsNewest (contents : List Telemetry) (deviceId : Identifier)
    (shown : Option LatestReading) : Prop where
  newest : ∀ row ∈ contents, row.deviceId = deviceId →
    (∀ r ∈ contents, r.deviceId = deviceId → r.eventAt ≤ row.eventAt) → shown = some (.ofRow row)
  unread : (∀ row ∈ contents, row.deviceId ≠ deviceId) → shown = none

theorem showsNewest (h : db.DistinctTimes) (deviceId : Identifier) :
    ShowsNewest (db.telemetry.rows.map Telemetry.content) deviceId
      ((db.newestReadings deviceId fun _ => true).head?.map .ofRow) := by
  constructor
  · intro row hrow hdevice hnewest
    obtain ⟨r, hr, rfl⟩ := List.mem_map.mp hrow
    have hhead : (db.newestReadings deviceId fun _ => true).head? = some r := by
      refine newest_eq_some.mpr ⟨⟨hr, hdevice, rfl⟩, fun r' hr' hdevice' _ => ?_⟩
      rw [newestFirst_iff]
      rcases (hnewest _ (List.mem_map_of_mem hr') hdevice').lt_or_eq with hlt | heq
      · exact .inl hlt
      · -- a second reading of that time would be the same
        obtain rfl := h.eq hr' hr (hdevice'.trans hdevice.symm) heq
        exact .inr ⟨rfl, le_rfl⟩
    rw [hhead]
    rfl
  · intro hnone
    have hnil : (db.newestReadings deviceId fun _ => true).head? = none := by
      refine Option.eq_none_iff_forall_ne_some.mpr fun r hr => ?_
      obtain ⟨hmem, hdevice, -⟩ := (newest_eq_some.mp hr).1
      exact hnone r.content (List.mem_map_of_mem hmem) hdevice
    rw [hnil]
    rfl

/-- Older readings that come later do not become the newest. -/
theorem newest_eq_of_older {deviceId : Identifier} {new : List Telemetry}
    (hrows : db'.telemetry.rows = db.telemetry.rows ++ new)
    (holder : ∀ r ∈ new, r.deviceId = deviceId →
      ∃ r' ∈ db.telemetry, r'.deviceId = deviceId ∧ r.eventAt < r'.eventAt) :
    (db'.newestReadings deviceId fun _ => true).head? =
      (db.newestReadings deviceId fun _ => true).head? := by
  have hmem (r : Telemetry) : r ∈ db'.telemetry ↔ r ∈ db.telemetry ∨ r ∈ new := by
    rw [Table.mem_def, hrows, List.mem_append, Table.mem_def]
  apply Option.ext
  intro r
  simp only [newest_eq_some, and_true, true_implies]
  constructor
  · rintro ⟨⟨hr, hdevice⟩, hfirst⟩
    refine ⟨⟨?_, hdevice⟩, fun r' hr' hdevice' => hfirst r' ((hmem r').mpr (.inl hr')) hdevice'⟩
    rcases (hmem r).mp hr with hr | hr
    · exact hr
    · -- a newer one was there before
      obtain ⟨r', hr', hdevice', hlt⟩ := holder r hr hdevice
      rcases newestFirst_iff.mp (hfirst r' ((hmem r').mpr (.inl hr')) hdevice') with hgt | ⟨heq, -⟩
      · exact absurd hlt hgt.not_gt
      · exact absurd heq hlt.ne
  · rintro ⟨⟨hr, hdevice⟩, hfirst⟩
    refine ⟨⟨(hmem r).mpr (.inl hr), hdevice⟩, fun r' hr' hdevice' => ?_⟩
    rcases (hmem r').mp hr' with hr' | hr'
    · exact hfirst r' hr' hdevice'
    · obtain ⟨r'', hr'', hdevice'', hlt⟩ := holder r' hr' hdevice'
      have hnewest := newestFirst_iff.mp (hfirst r'' hr'' hdevice'')
      exact newestFirst_iff.mpr (.inl (hlt.trans_le (hnewest.elim LT.lt.le fun h => h.1.ge)))

end Shown

/-! ## Runs -/

section Runs

variable {pg : NumericColumn} {db db₁ db₂ : Db} {events events' : List TelemetryEvent}

/-- The rows a run adds have the contents of its events. -/
theorem Leaves.exists_new (h : Leaves pg db events db₁)
    (hgrows : ∃ new, db₁.telemetry.rows = db.telemetry.rows ++ new) :
    ∃ new, db₁.telemetry.rows = db.telemetry.rows ++ new ∧
      new.map Telemetry.content = events.map (TelemetryEvent.content pg) := by
  obtain ⟨new, hnew⟩ := hgrows
  have hcontents := h.telemetry
  rw [hnew, List.map_append] at hcontents
  exact ⟨new, hnew, List.append_cancel_left hcontents⟩

theorem Accepts.prefix (h : Accepts pg db events db₁) :
    ∃ new, db₁.telemetry.rows = db.telemetry.rows ++ new := by
  induction h with
  | refl => exact ⟨[], (List.append_nil _).symm⟩
  | step _ last ih =>
    obtain ⟨new, hnew⟩ := ih
    obtain ⟨more, hmore⟩ := (ingestBatch_eq_ok last).2.2.telemetry
    exact ⟨new ++ more, by rw [hmore, hnew, List.append_assoc]⟩

/-- Two runs that accept the same events, in whatever order and batches, show the same, if no two
events of a device share their time: each device with its newest reading, and each history. An
older event changes no newest reading. -/
theorem read_models_order_independent (h₁ : Accepts pg db events db₁)
    (h₂ : Accepts pg db events' db₂) (hsame : events.Perm events')
    (hdistinct : (db.telemetry.rows.map Telemetry.deviceTime ++
      events.map TelemetryEvent.deviceTime).Nodup) :
    (∀ names now now', (listDeviceStatus db₁ names now).map DeviceStatus.reading =
      (listDeviceStatus db₂ names now').map DeviceStatus.reading) ∧
    (∀ names now, ∀ d ∈ db.devices, db.Joined d →
      ∃ s ∈ listDeviceStatus db₁ names now, s.deviceId = d.deviceId ∧
        ShowsNewest (db.telemetry.rows.map Telemetry.content ++
          events.map (TelemetryEvent.content pg)) d.deviceId s.latestReading) ∧
    (∀ deviceId rangeStart rangeEnd, readDeviceHistory db₁ deviceId rangeStart rangeEnd =
      readDeviceHistory db₂ deviceId rangeStart rangeEnd) ∧
    ∀ late db₃, Accepts pg db₁ late db₃ → ∀ names now now', ∀ s ∈ listDeviceStatus db₁ names now,
      ∀ s' ∈ listDeviceStatus db₃ names now', s'.deviceId = s.deviceId →
      (∀ e ∈ late, e.deviceId = s.deviceId →
        ∃ r ∈ db₁.telemetry, r.deviceId = e.deviceId ∧ e.eventAt < r.eventAt) →
      s'.latestReading = s.latestReading := by
  have hleaves₁ := h₁.leaves
  have hleaves₂ := h₂.leaves
  have hdistinct₁ : db₁.DistinctTimes := hleaves₁.distinctTimes hdistinct
  have hdistinct₂ : db₂.DistinctTimes := by
    refine hleaves₂.distinctTimes (List.Perm.nodup ?_ hdistinct)
    exact (hsame.map _).append_left _
  -- Up to what arrival decides, the two tables hold the same rows in some order.
  have hperm : (db₁.telemetry.rows.map Telemetry.content).Perm
      (db₂.telemetry.rows.map Telemetry.content) := by
    rw [hleaves₁.telemetry, hleaves₂.telemetry]
    exact (hsame.map _).append_left _
  have hread (deviceId : Identifier) (condition : Telemetry → Bool)
      (hcondition : ∀ r, condition r.content = condition r) :
      (db₁.newestReadings deviceId condition).map Telemetry.content =
        (db₂.newestReadings deviceId condition).map Telemetry.content :=
    newestReadings_eq hdistinct₁ hdistinct₂ hcondition hperm
  refine ⟨fun names now now' => ?list, fun names now d hd hjoined => ?newest,
    fun deviceId rangeStart rangeEnd => ?history, ?late⟩
  case list =>
    exact listDeviceStatus_congr names now now' (hleaves₁.sites.trans hleaves₂.sites.symm)
      (hleaves₁.gateways.trans hleaves₂.gateways.symm)
      (hleaves₁.devices.trans hleaves₂.devices.symm) fun d => hread d _ fun _ => rfl
  case newest =>
    -- presence aside, the device is registered after the run as before
    have hmem : d.registration ∈ db₁.devices.rows.map Device.registration :=
      hleaves₁.devices ▸ List.mem_map_of_mem hd
    obtain ⟨d₁, hd₁, hregistration⟩ := List.mem_map.mp hmem
    have hdevice : d₁.registration.deviceId = d.registration.deviceId := by rw [hregistration]
    have hgateway : d₁.registration.gatewayId = d.registration.gatewayId := by rw [hregistration]
    have hjoined₁ : db₁.Joined d₁ := by
      rw [Db.Joined, hleaves₁.gateways, hleaves₁.sites,
        show d₁.gatewayId = d.gatewayId from hgateway]
      exact hjoined
    obtain ⟨s, hs, hsame⟩ := exists_listed hd₁ hjoined₁ names now
    refine ⟨s, hs, hsame.trans hdevice, ?_⟩
    rw [latestReading_of_mem hs, ← hleaves₁.telemetry, hsame,
      show d₁.deviceId = d.deviceId from hdevice]
    exact showsNewest hdistinct₁ d.deviceId
  case history =>
    have hknown (d : Identifier) : db₁.hasDevice d = db₂.hasDevice d := by
      have hdevice (db' : Db) : db'.hasDevice d =
          (db'.devices.rows.map Device.registration).any fun r => decide (r.deviceId = d) := by
        rw [Db.hasDevice, Table.find?, Bool.eq_iff_iff, List.find?_isSome, List.any_map,
          List.any_eq_true]
        rfl
      rw [hdevice, hdevice, hleaves₁.devices, hleaves₂.devices]
    exact readDeviceHistory_congr (hknown deviceId) fun condition hcondition =>
      hread deviceId condition hcondition
  case late =>
    intro late db₃ h₃ names now now' s hs s' hs' hdevice holder
    obtain ⟨new, hrows, hcontents⟩ := h₃.leaves.exists_new h₃.prefix
    rw [latestReading_of_mem hs, latestReading_of_mem hs', hdevice]
    rw [newest_eq_of_older hrows fun r hr hd => ?_]
    -- each row added later comes from a late event, and its device already has a newer row
    have hmem : r.content ∈ late.map (TelemetryEvent.content pg) :=
      hcontents ▸ List.mem_map_of_mem hr
    obtain ⟨e, he, hcontent⟩ := List.mem_map.mp hmem
    have hdeviceId : e.deviceId = r.deviceId := congrArg Telemetry.deviceId hcontent
    have htime : e.eventAt = r.eventAt := congrArg Telemetry.eventAt hcontent
    obtain ⟨r', hr', hd', hlt⟩ := holder e he (hdeviceId.trans hd)
    exact ⟨r', hr', hd'.trans (hdeviceId.trans hd), htime ▸ hlt⟩

end Runs

/-- One reading in a batch of its own. -/
def singleBatch (second : Fin 60) : ValidatedTelemetryBatch where
  schemaVersion := .v1
  items := [.event (sampleReading second)]
  nonempty := by simp
  size := by simp [maxBatchSize]
  rejections := by simp

/-- A batch that is accepted as a whole. -/
def ingestSingle (db : Db) (second : Fin 60) : Option Db :=
  match ingestBatch exactColumn sampleClock db sampleGateway (singleBatch second) sampleBoot with
  | .ok (response, db') =>
    if response.results.map TelemetryResponseItem.outcome = [.accepted] then some db' else none
  | .error _ => none

theorem accepts_ingestSingle {db db₁ db₂ : Db} {events : List TelemetryEvent} {second : Fin 60}
    (h : Accepts exactColumn db events db₁) (hsingle : ingestSingle db₁ second = some db₂) :
    Accepts exactColumn db (events ++ [sampleReading second]) db₂ := by
  unfold ingestSingle at hsingle
  split at hsingle
  · next response db' hok =>
    split at hsingle
    · next houtcome =>
      obtain rfl := Option.some.inj hsingle
      have hstep := h.step hok
      obtain ⟨result, hresult⟩ : ∃ result, response.results = [result] := by
        cases hresults : response.results with
        | nil => simp [hresults] at houtcome
        | cons result rest =>
          cases rest with
          | nil => exact ⟨result, rfl⟩
          | cons => simp [hresults] at houtcome
      rw [hresult, List.map_singleton, List.singleton_inj] at houtcome
      rw [hresult] at hstep
      simpa only [singleBatch, acceptedEvents, if_pos houtcome] using hstep
    · simp at hsingle
  · simp at hsingle

/-- A history of two readings that lie newest first. -/
theorem history_of_two {db : Db} {deviceId : Identifier} {rangeStart rangeEnd t t' : Time}
    (hrange : ¬ (rangeStart ≥ rangeEnd ∨ rangeEnd - rangeStart > maxRange))
    (hdevice : db.hasDevice deviceId = true) (hlt : t < t')
    (hrows : (db.telemetry.rows.filter fun row => decide (row.deviceId = deviceId) &&
      (decide (rangeStart ≤ row.eventAt) && decide (row.eventAt < rangeEnd))).map
        Telemetry.eventAt = [t', t]) :
    ∃ history, readDeviceHistory db deviceId (some rangeStart) (some rangeEnd) = .ok history ∧
      history.points.map HistoryPoint.eventAt = [t, t'] := by
  obtain ⟨later, rest, hfilter, rfl, hrest⟩ := List.map_eq_cons_iff.mp hrows
  obtain ⟨earlier, hearlier, rfl⟩ := List.map_eq_singleton_iff.mp hrest
  subst hearlier
  have hsorted : [later, earlier].Pairwise fun a b => newestFirst a b = true := by
    simpa [newestFirst_iff] using .inl hlt
  have hread : db.readHistoryRows deviceId rangeStart rangeEnd (maxPoints + 1) =
      [later, earlier] := by
    rw [Db.readHistoryRows, Db.newestReadings, hfilter, List.mergeSort_of_pairwise hsorted]
    rfl
  refine ⟨_, by rw [readDeviceHistory, if_neg hrange, if_neg (by simp [hdevice])], ?_⟩
  rw [hread]
  rfl

/-- A device goes by its id. -/
def identifierNames : Names := ⟨Identifier.text, fun a b => decide (a ≤ b)⟩

/-- Two readings, in both orders: both histories show both, and the list the second. -/
theorem read_models_order_independent_sample :
    ∃ db₁ db₂ history, (ingestSingle sampleDb 1).bind (ingestSingle · 2) = some db₁ ∧
      (ingestSingle sampleDb 2).bind (ingestSingle · 1) = some db₂ ∧
      readDeviceHistory db₁ sampleDevice (some (-100)) (some 0) = .ok history ∧
      readDeviceHistory db₂ sampleDevice (some (-100)) (some 0) = .ok history ∧
      history.points.map HistoryPoint.eventAt = [-59, -58] ∧
      ∃ s ∈ listDeviceStatus db₁ identifierNames 0, s.deviceId = sampleDevice ∧
        s.latestReading.map LatestReading.eventAt = some (-58) := by
  have hcommit : ((ingestSingle sampleDb 1).bind (ingestSingle · 2)).isSome = true ∧
      ((ingestSingle sampleDb 2).bind (ingestSingle · 1)).any (fun db =>
        db.hasDevice sampleDevice && decide ((db.telemetry.rows.filter fun row =>
          decide (row.deviceId = sampleDevice) &&
            (decide (-100 ≤ row.eventAt) && decide (row.eventAt < 0))).map
              Telemetry.eventAt = [-58, -59])) = true := by
    decide +kernel
  obtain ⟨db₁, h₁⟩ := Option.isSome_iff_exists.mp hcommit.1
  obtain ⟨db₂, h₂, hrows⟩ := (Option.any_eq_true _ _).mp hcommit.2
  obtain ⟨db₁', hfirst₁, hsecond₁⟩ := Option.bind_eq_some_iff.mp h₁
  obtain ⟨db₂', hfirst₂, hsecond₂⟩ := Option.bind_eq_some_iff.mp h₂
  have hrun₁ := accepts_ingestSingle (accepts_ingestSingle (.refl sampleDb) hfirst₁) hsecond₁
  have hrun₂ := accepts_ingestSingle (accepts_ingestSingle (.refl sampleDb) hfirst₂) hsecond₂
  obtain ⟨-, hnewest, hhistory, -⟩ :=
    read_models_order_independent hrun₁ hrun₂ (.swap _ _ _) (by decide)
  -- The rows of the second run lie newest first already.
  obtain ⟨hknown, hrows⟩ := Bool.and_eq_true_iff.mp hrows
  obtain ⟨history, hok, hpoints⟩ := history_of_two (by decide) hknown
    (by decide : (-59 : Time) < -58) (of_decide_eq_true hrows)
  have hjoined : sampleDb.Joined ⟨sampleDevice, sampleGateway, true, none⟩ :=
    ⟨_, List.mem_singleton.mpr rfl, rfl, _, List.mem_singleton.mpr rfl, rfl⟩
  obtain ⟨s, hs, hdevice, hshows⟩ := hnewest identifierNames 0 _ (List.mem_singleton.mpr rfl) hjoined
  refine ⟨db₁, db₂, history, h₁, h₂, (hhistory ..).trans hok, hok, hpoints, s, hs, hdevice, ?_⟩
  rw [hshows.newest ((sampleReading 2).content exactColumn) (by decide) rfl (by decide)]
  rfl

end EquipmentMonitoring.Backend
