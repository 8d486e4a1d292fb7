import EquipmentMonitoring.Backend.Replay
import EquipmentMonitoring.Exchange.BatchBodies
import EquipmentMonitoring.Exchange.Responses
import EquipmentMonitoring.Gateway.DeliveryOrder

/-!
# From the Queue into the Backend's Tables

The queue file of the gateway and the database of the backend are changed by transactions of their
own, and between any two of these a request, a response or the gateway's process can be lost. An
event leaves the queue by a decision only, and a decision that confirms it rests on a transaction
that has left its row behind.

## Layers

- `ingestTelemetry`, `request`: the route, and how an exchange with it can end
- `System`, `System.step`: both sides, and what can happen next
- `decodedEvent`, `Delivered`: the backend's tables hold an event
- `exchange_confirms`: what a response confirms has been delivered
- `step_holds`: an event leaves the queue file only once it is confirmed
- `handed_over_exactly_once`: every inserted event is in the queue file or delivered, in every state
-/

namespace EquipmentMonitoring.HandOver

open EquipmentMonitoring.Json EquipmentMonitoring.Telemetry EquipmentMonitoring.Store
open EquipmentMonitoring.Forwarder EquipmentMonitoring.Backend EquipmentMonitoring.Exchange

/-! ## The Route -/

/-- The backend, as the gateway's credential reaches it. -/
structure Service where
  python : Interpreter
  pg : NumericColumn
  gatewayId : Identifier

/-- What a request meets: the clock, and the bits drawn for its batch id. -/
structure Visit where
  clock : Clock
  bits : Nat

/-- `ingest_telemetry`: the answer to a body, and the database behind it. The gateway reads no body
but that of a committed batch. -/
def ingestTelemetry (service : Service) (db : Db) (visit : Visit) (body : Bytes) : Response × Db :=
  match parseTelemetryBatch service.python body with
  | .error _ => (⟨400, []⟩, db)
  | .ok batch =>
    match ingestBatch service.pg visit.clock db service.gatewayId batch (routeBatchId visit.bits) with
    | .error .gatewayForbidden => (⟨403, []⟩, db)
    | .error (.database _) => (⟨503, []⟩, db)
    | .ok (response, db') => (⟨200, responseBody response⟩, db')

/-- How an exchange goes. -/
inductive Delivery where
  /-- It fails before the backend sees the request. -/
  | unsent (what : String)
  /-- The transaction is rolled back. -/
  | unavailable
  /-- The backend has answered, and the answer gets lost. -/
  | lost (visit : Visit) (what : String)
  | answered (visit : Visit)

/-- What comes back of a request, and the database behind it. -/
def request (service : Service) (db : Db) (delivery : Delivery) (body : Bytes) :
    Except String Response × Db :=
  match delivery with
  | .unsent what => (.error what, db)
  | .unavailable => (.ok ⟨503, []⟩, db)
  | .lost visit what => (.error what, (ingestTelemetry service db visit body).2)
  | .answered visit =>
    (.ok (ingestTelemetry service db visit body).1, (ingestTelemetry service db visit body).2)

/-! ## Both Sides -/

structure System where
  gateway : Process
  db : Db
  /-- The events whose insertion has returned `inserted`. -/
  inserted : List Event

/-- What can happen next; the faults are those of the calls into the queue file. -/
inductive Action where
  /-- A message is parsed, and its event inserted. -/
  | receive (topic payload receivedAt : Bytes) (faults : List Bool)
  /-- `drain_once` is entered. -/
  | claim (faults : List Bool)
  | exchange (delivery : Delivery)
  /-- The decisions are applied, or the batch is returned. -/
  | settle (now : Bytes) (faults : List Bool)
  /-- The process, if there is one, ends here; a new one opens the file. -/
  | restart (faults : List Bool)
  /-- The backend gets a batch by another way: from another gateway, or late. -/
  | ingest (clock : Clock) (gatewayId : Identifier) (batch : ValidatedTelemetryBatch)
    (batchId : Identifier)

/-- The body that is sent next. -/
def sentBody [Nlohmann.Library] (p : Process) : Option Bytes :=
  match p.running, p.phase with
  | true, .claimed rows => (batchJson rows).toOption
  | _, _ => none

/-- The database after a transaction for a batch. -/
def ingested (pg : NumericColumn) (clock : Clock) (db : Db) (gatewayId : Identifier)
    (batch : ValidatedTelemetryBatch) (batchId : Identifier) : Db :=
  match ingestBatch pg clock db gatewayId batch batchId with
  | .ok (_, db') => db'
  | .error _ => db

namespace System

variable [Nlohmann.Library]

/-- `Store::insert` for an event that was parsed. -/
def insert (s : System) (event : Event) (faults : List Bool) : System :=
  { s with
    gateway := s.gateway.step ⟨.insert event, faults⟩
    inserted :=
      match s.gateway.running, (Store.insert event ⟨s.gateway.tables, faults⟩).1 with
      | true, .ok .inserted => s.inserted ++ [event]
      | _, _ => s.inserted }

def exchange (service : Service) (s : System) (delivery : Delivery) : System :=
  { s with
    gateway := s.gateway.step ⟨.exchange fun body => (request service s.db delivery body).1, []⟩
    db :=
      match sentBody s.gateway with
      | some body => (request service s.db delivery body).2
      | none => s.db }

def step (service : Service) (s : System) : Action → System
  | .receive topic payload receivedAt faults =>
    match Telemetry.parse topic payload receivedAt with
    | .ok event => s.insert event faults
    -- a message that parse refuses is not stored
    | .error _ => s
  | .claim faults => { s with gateway := s.gateway.step ⟨.claim, faults⟩ }
  | .exchange delivery => s.exchange service delivery
  | .settle now faults => { s with gateway := s.gateway.step ⟨.settle now, faults⟩ }
  | .restart faults => { s with gateway := s.gateway.step ⟨.restart, faults⟩ }
  | .ingest clock gatewayId batch batchId =>
    { s with db := ingested service.pg clock s.db gatewayId batch batchId }

def run (service : Service) (s : System) (actions : List Action) : System :=
  actions.foldl (step service) s

/-- An empty queue file, and the backend's database as it is. -/
def start (db : Db) : System := ⟨Process.start Tables.empty, db, []⟩

end System

/-! ## Delivered Events -/

/-- The event as the backend reads it from what the gateway forwards. -/
def decodedEvent [Nlohmann.Library] (python : Interpreter) (event : Event) :
    Option TelemetryEvent :=
  match backendEventJson event with
  | .error _ => none
  | .ok text =>
    match (loads python text).map validateTelemetryItem with
    | some (.event item) => some item
    | _ => none

/-- The row has the immutable content of the event. -/
structure SameContent (row : Backend.Telemetry) (item : TelemetryEvent) : Prop where
  schemaVersion : row.schemaVersion = .v1
  measuredAt : row.measuredAt = item.measuredAt
  deviceUptimeMs : row.deviceUptimeMs = item.deviceUptimeMs
  metric : row.metric = item.metric
  value : row.value.toRat = item.value.toRat
  unit : row.unit = item.unit
  quality : row.quality = item.quality

/-- The row has the identity of the event. -/
structure SameIdentity (row : Backend.Telemetry) (event : Event) : Prop where
  deviceId : row.deviceId.text = event.deviceId
  bootId : row.bootId.text = event.bootId
  sequenceNumber : (row.sequenceNumber.value : Int) = event.sequenceNumber

/-- The telemetry table holds the event. -/
def Delivered [Nlohmann.Library] (python : Interpreter) (db : Db) (event : Event) : Prop :=
  ∃ item, decodedEvent python event = some item ∧
    ∃ row ∈ db.telemetry, SameIdentity row event ∧ SameContent row item

theorem sameContent_of_matches {row : Backend.Telemetry} {v : SchemaVersion} {item : TelemetryEvent}
    (h : matchesContent row v item = true) : SameContent row item := by
  simp only [matchesContent, Bool.and_eq_true, beq_iff_eq, Decimal.numEq_iff] at h
  obtain ⟨⟨⟨⟨⟨⟨-, hmeasured⟩, huptime⟩, -⟩, hvalue⟩, -⟩, hquality⟩ := h
  -- there is one version, one metric and one unit
  exact ⟨by cases row.schemaVersion; rfl, hmeasured, huptime,
    by cases row.metric; cases item.metric; rfl, hvalue,
    by cases row.unit; cases item.unit; rfl, hquality⟩

/-- Rows that are added hide nothing. -/
theorem Delivered.mono [Nlohmann.Library] {python : Interpreter} {db db' : Db} {event : Event}
    (hrows : ∃ new, db'.telemetry.rows = db.telemetry.rows ++ new) (h : Delivered python db event) :
    Delivered python db' event := by
  obtain ⟨new, hnew⟩ := hrows
  obtain ⟨item, hdecoded, row, hrow, hsame⟩ := h
  refine ⟨item, hdecoded, row, ?_, hsame⟩
  rw [Table.mem_def, hnew]
  exact List.mem_append_left _ hrow

/-! ## What a Commit Leaves Behind -/

section Commit

variable [Nlohmann.Library] {python : Interpreter} {db : Db} {row : QueuedEvent} {payload : Value}
  {result : TelemetryResponseItem}

/-- An item of a batch is what the backend reads from its event alone. -/
theorem decodedEvent_of_carries (hcarries : Carries row payload)
    (hsendable : sendable row.event.mqttPayload = true) {text : Bytes}
    (htext : backendEventJson row.event = .ok text) {item : TelemetryEvent}
    (hitem : validateTelemetryItem payload = .event item) :
    decodedEvent python row.event = some item := by
  obtain ⟨src, rfl⟩ := hcarries
  obtain ⟨-, hload⟩ := (sendable_iff src).mp hsendable
  obtain ⟨-, hreceived, rfl⟩ := backendEventJson_ok src htext
  have hloadable := forwarded_loadable src hload hreceived
  have hloads := loads_render_tight (hloadable.mono (Nat.zero_le 2)) python
  rw [decodedEvent, htext]
  simp only [hloads, Option.map_some, hitem]

/-- Every event of a body has a text of its own. -/
theorem text_of_batchJson {claimed : List QueuedEvent} {body : Bytes}
    (hbody : batchJson claimed = .ok body) :
    ∀ row ∈ claimed, ∃ text, backendEventJson row.event = .ok text := by
  simp only [batchJson, except_bind_eq_ok, mapM_eq_ok] at hbody
  obtain ⟨texts, htexts, -⟩ := hbody
  intro row hrow
  obtain ⟨text, -, htext⟩ := exists_of_mem_right htexts.flip hrow
  exact ⟨text, htext⟩

/-- A recorded confirmation is a row. -/
theorem delivered_of_recorded {i : Ingestion} (hcarries : Carries row payload)
    (hsendable : sendable row.event.mqttPayload = true)
    (htext : ∃ text, backendEventJson row.event = .ok text)
    (hidentifies : Identifies result row.event)
    (hrecorded : Backend.Recorded i db.telemetry (validateTelemetryItem payload) result)
    (hconfirmed : result.outcome ≠ .rejected) : Delivered python db row.event := by
  obtain ⟨text, htext⟩ := htext
  cases hitem : validateTelemetryItem payload with
  | response refused =>
    rw [hitem] at hrecorded
    cases hrecorded with
    | response hfinal => exact absurd hfinal hconfirmed
  | event item =>
    have hdecoded : decodedEvent python row.event = some item :=
      decodedEvent_of_carries hcarries hsendable htext hitem
    rw [hitem] at hrecorded
    cases hrecorded with
    -- nothing of the kind is confirmed, so the gateway kept its row
    | refused | dataError | conflict => exact absurd rfl hconfirmed
    | @held _ value stored outcome hrefusal hvalue hrow hmatches hne =>
      obtain ⟨hmem, hid⟩ := Table.find?_eq_some.mp hrow
      obtain ⟨hdevice, hboot, hsequence⟩ := Identity.mk.inj hid
      refine ⟨item, hdecoded, stored, hmem, ⟨?_, ?_, ?_⟩, sameContent_of_matches hmatches⟩
      · rw [hdevice]
        exact hidentifies.deviceId _ rfl
      · rw [hboot]
        exact hidentifies.bootId _ rfl
      · rw [hsequence]
        exact hidentifies.sequenceNumber _ rfl

/-- So it is for every event of a batch. -/
theorem delivered_of_forall₂ {i : Ingestion} {claimed : List QueuedEvent} {payloads : List Value}
    {results : List TelemetryResponseItem} (hcarries : List.Forall₂ Carries claimed payloads)
    (hsendable : ∀ row ∈ claimed, sendable row.event.mqttPayload = true)
    (htext : ∀ row ∈ claimed, ∃ text, backendEventJson row.event = .ok text)
    (hidentifies : List.Forall₂ (fun row result => Identifies result row.event) claimed results)
    (hrecorded : List.Forall₂ (Backend.Recorded i db.telemetry)
      (payloads.map validateTelemetryItem) results) :
    List.Forall₂ (fun row result => result.outcome ≠ .rejected → Delivered python db row.event)
      claimed results := by
  -- Rows, payloads, results and records stand place by place.
  induction hcarries generalizing results with
  | nil => cases hidentifies; exact .nil
  | cons hrow _ ih =>
    rw [List.forall_mem_cons] at hsendable htext
    cases hidentifies with
    | cons hid hids =>
      cases hrecorded with
      | cons hrec hrecs =>
        exact .cons (delivered_of_recorded hrow hsendable.1 htext.1 hid hrec)
          (ih hsendable.2 htext.2 hids hrecs)

end Commit

/-! ## What a Response Confirms -/

/-- The decision takes its event out of the queue file. -/
def Confirmation (d : DeliveryDecision) : Prop := d.action = .accepted ∨ d.action = .duplicate

theorem confirmation_decisionOf {result : TelemetryResponseItem} :
    Confirmation (decisionOf result) ↔ result.outcome ≠ .rejected := by
  unfold Confirmation decisionOf
  cases result.outcome <;> simp [deliveryAction]

theorem ingested_rows (pg : NumericColumn) (clock : Clock) (db : Db) (gatewayId : Identifier)
    (batch : ValidatedTelemetryBatch) (batchId : Identifier) :
    ∃ new, (ingested pg clock db gatewayId batch batchId).telemetry.rows =
      db.telemetry.rows ++ new := by
  unfold ingested
  split
  · next hcommit => exact (ingestBatch_eq_ok hcommit).2.2.telemetry
  · exact ⟨[], (List.append_nil _).symm⟩

theorem ingestTelemetry_rows (service : Service) (db : Db) (visit : Visit) (body : Bytes) :
    ∃ new, (ingestTelemetry service db visit body).2.telemetry.rows = db.telemetry.rows ++ new := by
  have hsame : ∃ new, db.telemetry.rows = db.telemetry.rows ++ new := ⟨[], (List.append_nil _).symm⟩
  unfold ingestTelemetry
  split
  · exact hsame
  · split
    · exact hsame
    · exact hsame
    · next hcommit => exact (ingestBatch_eq_ok hcommit).2.2.telemetry

/-- However a request ends, the backend loses no row. -/
theorem request_rows (service : Service) (db : Db) (delivery : Delivery) (body : Bytes) :
    ∃ new, (request service db delivery body).2.telemetry.rows = db.telemetry.rows ++ new := by
  cases delivery with
  | unsent => exact ⟨[], (List.append_nil _).symm⟩
  | unavailable => exact ⟨[], (List.append_nil _).symm⟩
  | lost visit what => exact ingestTelemetry_rows ..
  | answered visit => exact ingestTelemetry_rows ..

/-- An answer of status 200 is that of a committed batch. -/
theorem request_committed {service : Service} {db : Db} {delivery : Delivery} {body : Bytes}
    {response : Response} (h : (request service db delivery body).1 = .ok response)
    (hstatus : response.statusCode = 200) :
    ∃ (visit : Visit) (batch : ValidatedTelemetryBatch) (committed : TelemetryBatchResponse),
      parseTelemetryBatch service.python body = .ok batch ∧
      ingestBatch service.pg visit.clock db service.gatewayId batch (routeBatchId visit.bits) =
        .ok (committed, (request service db delivery body).2) ∧
      response.body = responseBody committed := by
  cases delivery with
  | unsent => simp [request] at h
  | lost => simp [request] at h
  | unavailable =>
    obtain rfl := Except.ok.inj h
    exact absurd hstatus (by decide)
  | answered visit =>
    obtain rfl := Except.ok.inj h
    simp only [request]
    unfold ingestTelemetry at hstatus ⊢
    cases hbatch : parseTelemetryBatch service.python body with
    | error e =>
      simp [hbatch] at hstatus
    | ok batch =>
      simp only [hbatch] at hstatus ⊢
      cases hcommit : ingestBatch service.pg visit.clock db service.gatewayId batch
        (routeBatchId visit.bits) with
      | error e =>
        cases e <;> simp [hcommit] at hstatus
      | ok committed => exact ⟨visit, batch, committed.1, rfl, hcommit, rfl⟩

/-- What the decisions on a batch confirm, the backend's tables hold. -/
theorem exchange_confirms [Nlohmann.Library] {service : Service} {db : Db} {delivery : Delivery}
    {rows rows' : List QueuedEvent} {decisions : List DeliveryDecision}
    (haccepted : ∀ row ∈ rows, Accepted row)
    (h : afterExchange rows (fun body => (request service db delivery body).1) =
      .applying rows' decisions) :
    rows' = rows ∧ ∃ body, batchJson rows = .ok body ∧ ∀ p ∈ rows.zip decisions, Confirmation p.2 →
      Delivered service.python (request service db delivery body).2 p.1.event := by
  unfold afterExchange at h
  split at h
  · simp at h
  · next body hbody =>
    split at h
    · simp at h
    · next response hresponse =>
      split at h
      · simp at h
      · next hstatus =>
        split at h
        · simp at h
        · next parsed hparsed =>
          obtain ⟨rfl, rfl⟩ := Phase.applying.inj h
          refine ⟨rfl, body, hbody, ?_⟩
          obtain ⟨visit, batch, committed, hbatch, hcommit, hanswer⟩ :=
            request_committed hresponse (not_not.mp hstatus)
          obtain ⟨hid, hidentifies⟩ := identifies_of_commit haccepted hbody hbatch hcommit
          obtain ⟨payloads, hcarries, hitems⟩ := items_of_claimed haccepted hbody hbatch
          obtain ⟨-, -, hsteps⟩ := ingestBatch_eq_ok hcommit
          have hrecorded := hsteps.recorded batch.rejections
          rw [hitems] at hrecorded
          have hdelivered : List.Forall₂ (fun row result => result.outcome ≠ .rejected →
              Delivered service.python (request service db delivery body).2 row.event)
              rows committed.results :=
            delivered_of_forall₂ hcarries (sendable_of_parsed haccepted hbody hbatch)
              (text_of_batchJson hbody) hidentifies hrecorded
          -- the decisions are those of the results, place by place
          have hlength : committed.batchId.text.length ≤ 128 := by
            rw [hid, routeBatchId, length_uuidText]
            decide
          rw [hanswer, parseDecisions_responseBody hlength hidentifies] at hparsed
          obtain rfl := Except.ok.inj hparsed
          intro p hp hconfirmation
          rw [List.zip_map_right, List.mem_map] at hp
          obtain ⟨⟨row, result⟩, hmem, rfl⟩ := hp
          exact (List.forall₂_iff_zip.mp hdelivered).2 hmem
            (confirmation_decisionOf.mp hconfirmation)

/-! ## The Queue File -/

section Turn

variable {p : Process} {turn : Turn}

/-- The rows that the worker holds are queued. -/
def Held (p : Process) : Prop := ∀ r ∈ p.phase.rows, r ∈ p.tables.intakeEvents

theorem held_idle (t : Tables) (running : Bool) : Held ⟨t, running, .idle⟩ := by
  simp [Held, Phase.rows]

/-- A settlement takes only confirmed events out of the queue file. -/
theorem settleAll_holds {now : Bytes} {t : Tables} {rows : List QueuedEvent}
    {decisions : List DeliveryDecision} (hheld : ∀ r ∈ rows, r ∈ t.intakeEvents)
    (hsettleable : AllSettleable now (rows.zip decisions) t) {e : Event} (he : Holds t e) :
    Holds (settleAll now (rows.zip decisions) t) e ∨
      ∃ s ∈ rows.zip decisions, s.1.event = e ∧ Confirmation s.2 := by
  have hqueued : ∀ s ∈ rows.zip decisions, s.1 ∈ t.intakeEvents :=
    fun s hs => hheld s.1 (List.of_mem_zip hs).1
  rcases he with ⟨r, hr, rfl⟩ | ⟨q, hq, rfl⟩
  · -- a row leaves the tables only through a confirmation of its own
    by_cases hsettled : ∃ s ∈ rows.zip decisions, s.1 = r
    · obtain ⟨s, hs, rfl⟩ := hsettled
      cases haction : s.2.action with
      | accepted => exact .inr ⟨s, hs, rfl, .inl haction⟩
      | duplicate => exact .inr ⟨s, hs, rfl, .inr haction⟩
      | retry =>
        refine .inl (.inl ⟨releaseRow s.1, ?_, rfl⟩)
        exact (mem_settleAll_intake hsettleable hqueued).mpr (.inr ⟨s, hs, haction, rfl⟩)
      | rejected =>
        refine .inl (.inr ⟨quarantineRow now s.1 s.2.reason, ?_, rfl⟩)
        exact (mem_settleAll_quarantine hsettleable).mpr (.inr ⟨s, hs, haction, rfl⟩)
    · refine .inl (.inl ⟨r, (mem_settleAll_intake hsettleable hqueued).mpr (.inl ⟨hr, ?_⟩), rfl⟩)
      rintro s hs rfl
      exact hsettled ⟨s, hs, rfl⟩
  · exact .inl (.inr ⟨q, (mem_settleAll_quarantine hsettleable).mpr (.inl hq), rfl⟩)

theorem applyDecisions_holds {now : Bytes} {t : Tables} {rows : List QueuedEvent}
    {decisions : List DeliveryDecision} (hheld : ∀ r ∈ rows, r ∈ t.intakeEvents)
    (faults : List Bool) {e : Event} (he : Holds t e) :
    Holds (applyDecisions now rows decisions ⟨t, faults⟩).2.data e ∨
      ∃ s ∈ rows.zip decisions, s.1.event = e ∧ Confirmation s.2 := by
  rcases applyDecisions_spec now rows decisions ⟨t, faults⟩ with ⟨_, -, hdata⟩ | ⟨_, -, hall, hdata⟩
  · exact .inl (hdata ▸ he)
  · rw [hdata]
    exact settleAll_holds hheld hall he

/-- A batch that is returned stays in the queue file. -/
theorem release_holds {now : Bytes} {t : Tables} {rows : List QueuedEvent}
    (hheld : ∀ r ∈ rows, r ∈ t.intakeEvents) (faults : List Bool) {e : Event} (he : Holds t e) :
    Holds (release now rows ⟨t, faults⟩).2.data e := by
  refine (applyDecisions_holds hheld faults he).resolve_right ?_
  rintro ⟨s, hs, -, hconfirmation⟩
  rw [List.eq_of_mem_replicate (List.of_mem_zip hs).2] at hconfirmation
  rcases hconfirmation with h | h <;> exact absurd h (by decide)

/-- A row that is queued stays queued while another event is inserted. -/
theorem insert_queued {t : Tables} (event : Event) (faults : List Bool) {r : QueuedEvent}
    (hr : r ∈ t.intakeEvents) : r ∈ (Store.insert event ⟨t, faults⟩).2.data.intakeEvents := by
  rcases insert_spec event ⟨t, faults⟩ with ⟨_, -, hdata⟩ | ⟨_, -, heffect⟩
  · exact hdata ▸ hr
  · generalize (Store.insert event ⟨t, faults⟩).2.data = t' at heffect ⊢
    cases heffect with
    | inserted _ hinserted =>
      rw [Table.mem_def, hinserted.intake]
      exact List.mem_append_left _ hr
    | known => exact hr

theorem insert_holds {t : Tables} (event : Event) (faults : List Bool) {e : Event} (he : Holds t e) :
    Holds (Store.insert event ⟨t, faults⟩).2.data e := by
  rcases he with ⟨r, hr, rfl⟩ | ⟨q, hq, rfl⟩
  · exact .inl ⟨r, insert_queued event faults hr, rfl⟩
  · refine .inr ⟨q, ?_, rfl⟩
    rcases insert_spec event ⟨t, faults⟩ with ⟨_, -, hdata⟩ | ⟨_, -, heffect⟩
    · exact hdata ▸ hq
    · generalize (Store.insert event ⟨t, faults⟩).2.data = t' at heffect ⊢
      cases heffect with
      | inserted _ hinserted => rwa [hinserted.quarantine]
      | known => exact hq

theorem claim_held [Nlohmann.Library] (t : Tables) (faults : List Bool) :
    Held (Process.step ⟨t, true, .idle⟩ ⟨.claim, faults⟩) := by
  simp only [Process.step]
  rcases claimPending_claims ⟨t, faults⟩ with ⟨_, herr, -⟩ | ⟨rows, hok, rfl, hdata, -⟩
  · rw [herr]
    exact held_idle _ _
  · rw [hok, hdata]
    have hrows : (afterClaim (.ok (claimedBatch t))).rows = claimedBatch t := by
      unfold afterClaim
      cases claimedBatch t <;> rfl
    intro r hr
    rw [hrows] at hr
    exact mem_claimedTables.mpr (.inr hr)

theorem claim_holds {t : Tables} (faults : List Bool) {e : Event} (he : Holds t e) :
    Holds (claimPending Store.maxBatchSize ⟨t, faults⟩).2.data e := by
  rcases claimPending_claims ⟨t, faults⟩ with ⟨_, -, hdata⟩ | ⟨_, -, -, hdata, -⟩
  · exact hdata ▸ he
  · rw [hdata]
    rcases he with ⟨r, hr, rfl⟩ | hquarantined
    · by_cases hbatch : r ∈ batch t
      · exact .inl ⟨claimRow r, mem_claimedTables.mpr (.inr (List.mem_map_of_mem hbatch)), rfl⟩
      · exact .inl ⟨r, mem_claimedTables.mpr (.inl ⟨hr, hbatch⟩), rfl⟩
    · exact .inr hquarantined

theorem recoverAll_holds {t : Tables} {e : Event} (he : Holds t e) : Holds (recoverAll t) e := by
  rcases he with ⟨r, hr, rfl⟩ | hquarantined
  · refine .inl ⟨_, mem_recoverAll.mpr ⟨r, hr, rfl⟩, ?_⟩
    split <;> rfl
  · exact .inr hquarantined

/-- An event leaves the queue file only when decisions that confirm it are applied. -/
theorem step_holds [Nlohmann.Library] (hheld : Held p) (turn : Turn) {e : Event}
    (he : Holds p.tables e) :
    Holds (p.step turn).tables e ∨ ∃ rows decisions, p.phase = .applying rows decisions ∧
      ∃ s ∈ rows.zip decisions, s.1.event = e ∧ Confirmation s.2 := by
  obtain ⟨t, running, phase⟩ := p
  obtain ⟨action, faults⟩ := turn
  -- Opening the store fails before it touches a row, or recovers every row.
  have hrestart : Holds (openStore ⟨t, faults⟩).2.data e := by
    rcases openStore_spec ⟨t, faults⟩ with ⟨_, -, hdata⟩ | ⟨_, -, hdata⟩
    · exact hdata ▸ he
    · exact hdata ▸ recoverAll_holds he
  cases running with
  | false =>
    cases action with
    | restart => exact .inl hrestart
    | _ => exact .inl he
  | true =>
    cases action with
    | restart => exact .inl hrestart
    | insert event => exact .inl (insert_holds event faults he)
    | claim =>
      cases phase with
      | idle => exact .inl (claim_holds faults he)
      | _ => exact .inl he
    | exchange postBatch => cases phase <;> exact .inl he
    | settle now =>
      cases phase with
      | releasing rows => exact .inl (release_holds hheld faults he)
      | applying rows decisions =>
        have hsettled : Holds (applyDecisions now rows decisions ⟨t, faults⟩).2.data e ∨
            ∃ s ∈ rows.zip decisions, s.1.event = e ∧ Confirmation s.2 :=
          applyDecisions_holds hheld faults he
        refine hsettled.imp (fun h => ?_) fun h => ⟨rows, decisions, rfl, h⟩
        simp only [Process.step]
        split <;> next hrun => rwa [hrun] at h
      | _ => exact .inl he

/-- What the worker holds after a turn is queued. -/
theorem step_held [Nlohmann.Library] (hheld : Held p) (turn : Turn) : Held (p.step turn) := by
  obtain ⟨t, running, phase⟩ := p
  obtain ⟨action, faults⟩ := turn
  cases running with
  | false =>
    cases action with
    | restart => exact held_idle _ _
    | _ => exact hheld
  | true =>
    cases action with
    | restart => exact held_idle _ _
    | insert event => exact fun r hr => insert_queued event faults (hheld r hr)
    | claim =>
      cases phase with
      | idle => exact claim_held t faults
      | _ => exact hheld
    | exchange postBatch =>
      cases phase with
      | claimed rows =>
        intro r hr
        have hrows : r ∈ (afterExchange rows postBatch).rows := hr
        rw [afterExchange_rows] at hrows
        exact hheld r hrows
      | _ => exact hheld
    | settle now =>
      cases phase with
      | releasing rows => exact held_idle _ _
      | applying rows decisions =>
        simp only [Process.step]
        split
        · exact held_idle _ _
        · next hrun =>
          rcases applyDecisions_spec now rows decisions ⟨t, faults⟩ with ⟨_, -, hdata⟩ | ⟨_, hok, -⟩
          · rw [hrun] at hdata
            -- the settlement failed as a whole, so the rows in hand are still in flight
            exact fun r hr => hdata ▸ hheld r hr
          · simp [hrun] at hok
      | _ => exact hheld

/-- Queued rows are rows of accepted messages, whatever the turn, if an insertion is of one. -/
theorem step_accepted [Nlohmann.Library] (haccepted : ∀ r ∈ p.tables.intakeEvents, Accepted r)
    (hinsert : ∀ event, turn.action = .insert event →
      ∃ topic payload receivedAt, Telemetry.parse topic payload receivedAt = .ok event) :
    ∀ r ∈ (p.step turn).tables.intakeEvents, Accepted r := by
  intro r' hr'
  rcases step_origin p turn r' hr' with ⟨r, hr, hevent⟩ | ⟨haction, -⟩
  · obtain ⟨topic, payload, receivedAt, hparse⟩ := haccepted r hr
    exact ⟨topic, payload, receivedAt, hevent ▸ hparse⟩
  · exact hinsert r'.event haction

/-- Decisions come from the exchange, and stay until they are applied. -/
theorem step_applying [Nlohmann.Library] {rows : List QueuedEvent}
    {decisions : List DeliveryDecision} (h : (p.step turn).phase = .applying rows decisions) :
    p.phase = .applying rows decisions ∨ ∃ postBatch claimed, turn.action = .exchange postBatch ∧
      p.running = true ∧ p.phase = .claimed claimed ∧
      afterExchange claimed postBatch = .applying rows decisions := by
  obtain ⟨t, running, phase⟩ := p
  obtain ⟨action, faults⟩ := turn
  cases running with
  | false =>
    cases action with
    | restart => exact Phase.noConfusion h
    | _ => exact .inl h
  | true =>
    cases action with
    | restart => exact Phase.noConfusion h
    | insert event => exact .inl h
    | claim =>
      cases phase with
      | idle =>
        simp only [Process.step] at h
        unfold afterClaim at h
        split at h <;> exact Phase.noConfusion h
      | _ => exact .inl h
    | exchange postBatch =>
      cases phase with
      | claimed claimed => exact .inr ⟨postBatch, claimed, rfl, rfl, rfl, h⟩
      | _ => exact .inl h
    | settle now =>
      cases phase with
      | releasing => exact Phase.noConfusion h
      | applying =>
        simp only [Process.step] at h
        split at h <;> exact Phase.noConfusion h
      | _ => exact .inl h

end Turn

/-! ## Every State -/

/-- What holds in every state. -/
structure Sound [Nlohmann.Library] (service : Service) (s : System) : Prop where
  accepted : ∀ r ∈ s.gateway.tables.intakeEvents, Accepted r
  held : Held s.gateway
  /-- What the decisions that are to be applied confirm has been delivered. -/
  confirmed : ∀ rows decisions, s.gateway.phase = .applying rows decisions →
    ∀ d ∈ rows.zip decisions, Confirmation d.2 → Delivered service.python s.db d.1.event
  recorded : ∀ e ∈ s.inserted, Holds s.gateway.tables e ∨ Delivered service.python s.db e

theorem same_rows (db : Db) : ∃ new, db.telemetry.rows = db.telemetry.rows ++ new :=
  ⟨[], (List.append_nil _).symm⟩

section Steps

variable [Nlohmann.Library] {service : Service} {s : System}

theorem start_sound (db : Db) : Sound service (System.start db) where
  accepted _ hr := absurd hr List.not_mem_nil
  held := held_idle _ _
  confirmed := by simp [System.start, Process.start]
  recorded := by simp [System.start]

/-- A turn of the gateway, while the backend may add rows. -/
theorem turn_sound (h : Sound service s) {turn : Turn} {db : Db}
    (hrows : ∃ new, db.telemetry.rows = s.db.telemetry.rows ++ new)
    (hinsert : ∀ event, turn.action = .insert event →
      ∃ topic payload receivedAt, Telemetry.parse topic payload receivedAt = .ok event)
    (hexchange : ∀ postBatch claimed rows decisions, turn.action = .exchange postBatch →
      s.gateway.running = true → s.gateway.phase = .claimed claimed →
      afterExchange claimed postBatch = .applying rows decisions →
      ∀ d ∈ rows.zip decisions, Confirmation d.2 → Delivered service.python db d.1.event) :
    Sound service ⟨s.gateway.step turn, db, s.inserted⟩ where
  accepted := step_accepted h.accepted hinsert
  held := step_held h.held turn
  confirmed := by
    intro rows decisions hphase d hd hconfirmation
    -- decisions in hand were there before, or come from this very exchange
    rcases step_applying hphase with hold | ⟨postBatch, claimed, haction, hrunning, hclaimed, hafter⟩
    · exact (h.confirmed rows decisions hold d hd hconfirmation).mono hrows
    · exact hexchange postBatch claimed rows decisions haction hrunning hclaimed hafter d hd
        hconfirmation
  recorded := by
    intro e he
    rcases h.recorded e he with hqueued | hdelivered
    · rcases step_holds h.held turn hqueued with hkept | ⟨rows, decisions, hphase, d, hd, rfl, hc⟩
      · exact .inl hkept
      · exact .inr ((h.confirmed rows decisions hphase d hd hc).mono hrows)
    · exact .inr (hdelivered.mono hrows)

/-- An event whose insertion returns `inserted` is in the queue file. -/
theorem inserted_holds {event : Event} {faults : List Bool} (hrunning : s.gateway.running = true)
    (hinserted : (Store.insert event ⟨s.gateway.tables, faults⟩).1 = .ok .inserted) :
    Holds (s.gateway.step ⟨.insert event, faults⟩).tables event := by
  have hstep : (s.gateway.step ⟨.insert event, faults⟩).tables =
      (Store.insert event ⟨s.gateway.tables, faults⟩).2.data := by
    unfold Process.step
    simp only [hrunning]
  rw [hstep]
  rcases insert_spec event ⟨s.gateway.tables, faults⟩ with ⟨_, herr, -⟩ | ⟨result, hok, heffect⟩
  · rw [herr] at hinserted
    exact absurd hinserted (by simp)
  · obtain rfl : result = .inserted := Except.ok.inj (hok.symm.trans hinserted)
    generalize (Store.insert event ⟨s.gateway.tables, faults⟩).2.data = t' at heffect ⊢
    -- the call reported a new row, so the effect is that of a new row
    generalize hresult : InsertResult.inserted = result at heffect
    cases heffect with
    | inserted _ h =>
      refine .inl ⟨⟨event, .pending, 0⟩, ?_, rfl⟩
      rw [Table.mem_def, h.intake]
      exact List.mem_append_right _ (List.mem_singleton_self _)
    | known recorded hknown =>
      unfold compareContent at hresult
      split at hresult <;> exact InsertResult.noConfusion hresult

/-- A turn that is neither an insertion nor an exchange. -/
theorem plain_sound (h : Sound service s) {turn : Turn}
    (hinsert : ∀ event, turn.action ≠ .insert event)
    (hexchange : ∀ postBatch, turn.action ≠ .exchange postBatch) :
    Sound service { s with gateway := s.gateway.step turn } :=
  turn_sound h (same_rows s.db) (fun event haction => absurd haction (hinsert event))
    fun postBatch _ _ _ haction => absurd haction (hexchange postBatch)

theorem insert_sound (h : Sound service s) {event : Event} (faults : List Bool)
    (hparse : ∃ topic payload receivedAt, Telemetry.parse topic payload receivedAt = .ok event) :
    Sound service (s.insert event faults) := by
  have hturn : Sound service ⟨s.gateway.step ⟨.insert event, faults⟩, s.db, s.inserted⟩ :=
    turn_sound h (same_rows s.db) (fun event' haction => Forwarder.Action.insert.inj haction ▸ hparse)
      fun _ _ _ _ haction => Forwarder.Action.noConfusion haction
  refine ⟨hturn.accepted, hturn.held, hturn.confirmed, fun e he => ?_⟩
  simp only [System.insert] at he
  split at he
  · next hrunning hinserted =>
    rcases List.mem_append.mp he with hold | hnew
    · exact hturn.recorded e hold
    · obtain rfl := List.mem_singleton.mp hnew
      exact .inl (inserted_holds hrunning hinserted)
  · exact hturn.recorded e he

theorem exchange_sound (h : Sound service s) (delivery : Delivery) :
    Sound service (s.exchange service delivery) := by
  refine turn_sound h ?_ (fun _ haction => Forwarder.Action.noConfusion haction) ?_
  · split
    · exact request_rows service s.db delivery _
    · exact same_rows s.db
  · intro postBatch claimed rows decisions haction hrunning hclaimed hafter
    obtain rfl := Forwarder.Action.exchange.inj haction
    have haccepted : ∀ row ∈ claimed, Accepted row := by
      intro row hrow
      have hheld : row ∈ s.gateway.phase.rows := by rw [hclaimed]; exact hrow
      exact h.accepted row (h.held row hheld)
    obtain ⟨rfl, body, hbody, hdelivered⟩ := exchange_confirms haccepted hafter
    -- The backend saw the body of the rows in hand, and nothing else.
    have hsent : sentBody s.gateway = some body := by
      unfold sentBody
      simp only [hrunning, hclaimed, hbody]
      rfl
    rw [hsent]
    exact hdelivered

theorem ingest_sound (h : Sound service s) {db : Db}
    (hrows : ∃ new, db.telemetry.rows = s.db.telemetry.rows ++ new) :
    Sound service { s with db := db } where
  accepted := h.accepted
  held := h.held
  confirmed rows decisions hphase d hd hconfirmation :=
    (h.confirmed rows decisions hphase d hd hconfirmation).mono hrows
  recorded e he := (h.recorded e he).imp_right fun hdelivered => hdelivered.mono hrows

theorem step_sound (h : Sound service s) (action : Action) : Sound service (s.step service action) := by
  cases action with
  | receive topic payload receivedAt faults =>
    simp only [System.step]
    split
    · next event hparse => exact insert_sound h faults ⟨topic, payload, receivedAt, hparse⟩
    · exact h
  | claim faults => exact plain_sound h (by simp) (by simp)
  | exchange delivery => exact exchange_sound h delivery
  | settle now faults => exact plain_sound h (by simp) (by simp)
  | restart faults => exact plain_sound h (by simp) (by simp)
  | ingest clock gatewayId batch batchId => exact ingest_sound h (ingested_rows ..)

theorem run_sound (h : Sound service s) (actions : List Action) :
    Sound service (s.run service actions) := by
  induction actions generalizing s with
  | nil => exact h
  | cons action rest ih => exact ih (step_sound h action)

end Steps

/-- An event that was inserted is in the queue file, or the backend holds it; and the backend holds
no identity twice. -/
theorem handed_over_exactly_once [Nlohmann.Library] (service : Service) (db : Db)
    (actions : List Action) :
    let s := (System.start db).run service actions
    (∀ e ∈ s.inserted, (∃ r ∈ s.gateway.tables.intakeEvents, r.event = e) ∨
      (∃ q ∈ s.gateway.tables.quarantinedEvents, q.event = e) ∨ Delivered service.python s.db e) ∧
    (s.db.telemetry.rows.map Backend.Telemetry.identity).Nodup := by
  intro s
  have h : Sound service s := run_sound (start_sound db) actions
  exact ⟨fun e he => or_assoc.mp (h.recorded e he), s.db.telemetry.keys_nodup⟩

/-! ## A Run -/

def sampleService : Service := ⟨samplePython, exactColumn, sampleGateway⟩

/-- A message is received and forwarded; the answer gets lost, and the batch is sent again. -/
def sampleActions : List Action :=
  [.restart [], .receive Telemetry.sampleTopic Telemetry.samplePayload Telemetry.sampleReceivedAt [],
    .claim [], .exchange (.lost ⟨sampleClock, 0⟩ "timeout"), .settle [] [],
    .claim [], .exchange (.answered ⟨sampleClock, 1⟩), .settle [] []]

/-- One event was inserted, none is queued any more, and there is one row. -/
example : (let s := (System.start sampleDb).run sampleService sampleActions
    (s.inserted.length, s.gateway.tables.intakeEvents.rows.length, s.db.telemetry.rows.length)) =
    (1, 0, 1) := by
  decide +kernel

end EquipmentMonitoring.HandOver
