import EquipmentMonitoring.Foundations.Json.Reports
import EquipmentMonitoring.Gateway.StoreSpec
import EquipmentMonitoring.Gateway.Timestamps

/-!
# From the Broker to the Store (`intake.cpp`, `mqtt/client.cpp`)

A message is parsed and stored. What the callback cannot handle marks the client as failed, and
the gateway stops; so nothing that a message holds may get that far.

## Key Results

- `parse_refuses`: whatever `parse` is given, it throws `invalid_argument` only
- `receive_error`: what gets past `Intake::receive` was thrown by the store
- `message_never_fatal`: while the store works, no sequence of messages fails the client
-/

namespace EquipmentMonitoring.Telemetry

open EquipmentMonitoring.Json EquipmentMonitoring.Nlohmann

/-! ## Refusals -/

section Refuses

variable {α β : Type}

/-- Nothing but `invalid_argument` is thrown, and that by a check: `stoi` has a reason of its own. -/
def Refuses (x : Except Thrown α) : Prop :=
  ∀ e, x = .error e → ∃ reason, e = .invalidArgument reason ∧ reason ≠ "stoi"

theorem refuses_ok (a : α) : Refuses (.ok a : Except Thrown α) := by
  simp [Refuses]

theorem refuses_pure (a : α) : Refuses (pure a : Except Thrown α) := refuses_ok a

theorem refuses_throw {reason : String} (hreason : reason ≠ "stoi") :
    Refuses (throw (.invalidArgument reason) : Except Thrown α) := by
  intro e h
  exact ⟨reason, (Except.error.inj h).symm, hreason⟩

/-- What follows only has to refuse on what came before it. -/
theorem refuses_bind {x : Except Thrown α} {f : α → Except Thrown β} (hx : Refuses x)
    (hf : ∀ a, x = .ok a → Refuses (f a)) : Refuses (x >>= f) := by
  intro e h
  cases hcase : x with
  | error thrown =>
    rw [hcase] at h
    obtain rfl := Except.error.inj h
    exact hx _ hcase
  | ok a =>
    rw [hcase] at h
    exact hf a hcase e h

theorem refuses_require (condition : Bool) {reason : String} (hreason : reason ≠ "stoi") :
    Refuses (require condition reason) := by
  unfold require
  split
  · exact refuses_ok ()
  · exact refuses_throw hreason

/-- A check, then what follows it. -/
theorem refuses_check {condition : Bool} {reason : String} {f : Unit → Except Thrown β}
    (hreason : reason ≠ "stoi") (hf : ∀ a, Refuses (f a)) :
    Refuses (require condition reason >>= f) :=
  refuses_bind (refuses_require condition hreason) fun a _ => hf a

theorem refuses_forM {xs : List α} {f : α → Except Thrown Unit} (hf : ∀ a, Refuses (f a)) :
    Refuses (xs.forM f) := by
  induction xs with
  | nil => exact refuses_pure ()
  | cons a rest ih => exact refuses_bind (hf a) fun _ _ => ih

end Refuses

/-! ## Access to Members -/

section Reason

variable {reason : String} (hreason : reason ≠ "stoi")

include hreason

theorem exactKeys_refuses (object : Value) (expected : List Bytes) :
    Refuses (exactKeys object expected reason) :=
  refuses_check hreason fun _ => refuses_forM fun _ => refuses_require _ hreason

/-- The reference is taken behind a check of the type. -/
theorem identifier_refuses (value : Value) : Refuses (identifier value reason) := by
  cases value with
  | string text =>
    refine refuses_check hreason fun _ => refuses_bind (refuses_ok text) fun t _ => ?_
    exact refuses_check hreason fun _ => refuses_pure t
  | _ => exact refuses_throw hreason

theorem counter_refuses (value : Value) : Refuses (counter value reason) := by
  cases value with
  | number n =>
    cases hkind : numberKind n with
    | unsigned k =>
      simp only [counter, hkind]
      exact refuses_check hreason fun _ => refuses_pure _
    | integer i =>
      simp only [counter, hkind]
      exact refuses_check hreason fun _ => refuses_pure _
    | float =>
      simp only [counter, hkind]
      exact refuses_throw hreason
  | _ => exact refuses_throw hreason

end Reason

/-- Once the keys are checked, each of them can be accessed. -/
theorem at_refuses {object : Value} {expected : List Bytes} {reason : String}
    (hkeys : exactKeys object expected reason = .ok ()) {key : Bytes} (hkey : key ∈ expected) :
    Refuses (at_ object key) := by
  obtain ⟨-, -, hall⟩ := exactKeys_eq_ok.mp hkeys
  have hcontains : contains object key = true := contains_iff.mpr (hall key hkey)
  obtain ⟨v, hv⟩ := Option.isSome_iff_exists.mp hcontains
  rw [at_eq_ok.mpr hv]
  exact refuses_ok v

/-- The fixed positions and the conversions are in range behind the pattern. -/
theorem validMeasuredAt_refuses (value : Value) : Refuses (validMeasuredAt value) := by
  cases value with
  | string text =>
    obtain ⟨valid, hvalid, -⟩ := validMeasuredAt_text text
    rw [hvalid]
    exact refuses_ok valid
  | _ => exact refuses_pure _

theorem topicDeviceId_refuses (topic : Bytes) : Refuses (topicDeviceId topic) :=
  refuses_check (by decide) fun _ => refuses_check (by decide) fun _ => refuses_pure _

/-- The callback's table has an entry for every key that is reported to it. -/
theorem parseStrict_refuses [Nlohmann.Library] (payload : Bytes) :
    Refuses (parseStrict payload) := by
  -- Every key is reported inside an open object, so the key table is never out of range.
  have htable : trackAll 4 [] (Nlohmann.read payload).reports ≠ .error .outOfRange :=
    trackAll_ne_outOfRange (Library.announced payload) (by simp)
  refine refuses_bind (fun e h => ?_) fun _ _ => ?_
  · cases htrack : trackAll 4 [] (Nlohmann.read payload).reports with
    | ok keys => simp [htrack, Except.mapError] at h
    | error fault =>
      rw [htrack] at h
      obtain rfl := Except.error.inj h
      cases fault with
      | tooDeep => exact ⟨_, rfl, by decide⟩
      | duplicate => exact ⟨_, rfl, by decide⟩
      | outOfRange => exact absurd htrack htable
  · split
    · exact refuses_pure _
    · exact refuses_throw (by decide)

/-! ## Whole Messages -/

/-- Whatever arrives, `parse` returns an event or throws `invalid_argument` itself. -/
theorem parse_refuses [Nlohmann.Library] (topic payload receivedAt : Bytes) :
    Refuses (parse topic payload receivedAt) := by
  refine refuses_check (by decide) fun _ => ?_
  refine refuses_bind (topicDeviceId_refuses topic) fun deviceFromTopic _ => ?_
  refine refuses_bind (parseStrict_refuses payload) fun data _ => ?_
  refine refuses_check (by decide) fun _ => ?_
  refine refuses_bind (exactKeys_refuses (by decide) _ _) fun _ hkeys => ?_
  -- from here on the ten fields are present
  have hfield {key : Bytes} (hkey : key ∈ eventFields) : Refuses (at_ data key) :=
    at_refuses hkeys hkey
  refine refuses_bind (hfield (by decide)) fun _ _ => ?_
  refine refuses_check (by decide) fun _ => ?_
  refine refuses_bind (hfield (by decide)) fun _ _ => ?_
  refine refuses_bind (identifier_refuses (by decide) _) fun _ _ => ?_
  refine refuses_check (by decide) fun _ => ?_
  refine refuses_bind (hfield (by decide)) fun _ _ => ?_
  refine refuses_bind (identifier_refuses (by decide) _) fun _ _ => ?_
  refine refuses_bind (hfield (by decide)) fun _ _ => ?_
  refine refuses_bind (counter_refuses (by decide) _) fun _ _ => ?_
  refine refuses_bind (hfield (by decide)) fun _ _ => ?_
  refine refuses_bind (counter_refuses (by decide) _) fun _ _ => ?_
  refine refuses_bind (hfield (by decide)) fun _ _ => ?_
  refine refuses_bind (validMeasuredAt_refuses _) fun _ _ => ?_
  refine refuses_check (by decide) fun _ => ?_
  refine refuses_bind (hfield (by decide)) fun _ _ => ?_
  refine refuses_check (by decide) fun _ => ?_
  refine refuses_bind (hfield (by decide)) fun _ _ => ?_
  refine refuses_check (by decide) fun _ => ?_
  refine refuses_bind (hfield (by decide)) fun _ _ => ?_
  refine refuses_check (by decide) fun _ => ?_
  refine refuses_bind (hfield (by decide)) fun quality _ => ?_
  refine refuses_bind (exactKeys_refuses (by decide) _ _) fun _ hquality => ?_
  refine refuses_bind (at_refuses hquality (by decide)) fun _ _ => ?_
  refine refuses_check (by decide) fun _ => ?_
  refine refuses_bind (at_refuses hquality (by decide)) fun _ _ => ?_
  exact refuses_check (by decide) fun _ => refuses_pure _

end EquipmentMonitoring.Telemetry

namespace EquipmentMonitoring.Intake

open EquipmentMonitoring.Store EquipmentMonitoring.Telemetry

/-! ## Receiving -/

/-- What gets past `Intake::receive`. -/
inductive Failure where
  | parse (thrown : Thrown)
  | store (what : String)

/-- What became of a message. -/
inductive Received where
  | retainedMessage
  | rejected (reason : String)
  | stored (queueDepth : Nat)
  | duplicate
  | identityConflict
deriving DecidableEq

/-- `Intake::receive`, the clock reading `receivedAt`. -/
def receive [Nlohmann.Library] (receivedAt topic payload : Bytes) (retained : Bool)
    (c : Connection Tables) :
    Except Failure Received × Connection Tables :=
  if retained then (.ok .retainedMessage, c)
  else
    match parse topic payload receivedAt with
    | .error (.invalidArgument reason) => (.ok (.rejected reason), c)
    | .error thrown => (.error (.parse thrown), c)
    | .ok event =>
      match insert event c with
      | (.error what, c') => (.error (.store what), c')
      | (.ok .inserted, c') =>
        -- the depth of the queue is logged
        match queueDepth c' with
        | (.error what, c'') => (.error (.store what), c'')
        | (.ok depth, c'') => (.ok (.stored depth), c'')
      | (.ok .duplicate, c') => (.ok .duplicate, c')
      | (.ok .identityConflict, c') => (.ok .identityConflict, c')

/-- One of the store calls made for the event throws. -/
def StoreThrows (event : Event) (c : Connection Tables) (what : String) : Prop :=
  (insert event c).1 = .error what ∨
    ∃ c', insert event c = (.ok .inserted, c') ∧ (queueDepth c').1 = .error what

/-- What gets past `receive` was thrown by the store. -/
theorem receive_error [Nlohmann.Library] {receivedAt topic payload : Bytes} {retained : Bool}
    {c : Connection Tables} {failure : Failure}
    (h : (receive receivedAt topic payload retained c).1 = .error failure) :
    ∃ event what, parse topic payload receivedAt = .ok event ∧ failure = .store what ∧
      StoreThrows event c what := by
  unfold receive at h
  split at h
  · simp at h
  · cases hparse : parse topic payload receivedAt with
    | error thrown =>
      -- a message that does not parse is logged, which is no failure
      obtain ⟨reason, rfl, -⟩ := parse_refuses topic payload receivedAt thrown hparse
      simp [hparse] at h
    | ok event =>
      simp only [hparse] at h
      refine ⟨event, ?_⟩
      rcases hinsert : insert event c with ⟨what | r, c'⟩
      · simp only [hinsert, Except.error.injEq] at h
        exact ⟨what, rfl, h.symm, .inl (by rw [hinsert])⟩
      · cases r with
        | inserted =>
          simp only [hinsert] at h
          rcases hdepth : queueDepth c' with ⟨what | depth, c''⟩
          · simp only [hdepth, Except.error.injEq] at h
            exact ⟨what, rfl, h.symm,
              .inr ⟨c', hinsert, by rw [hdepth]⟩⟩
          · simp [hdepth] at h
        | _ => simp [hinsert] at h

/-! ## A Working Store -/

/-- The constraints of the tables hold for any event with a counter. -/
theorem insert_returns {event : Event} (hsequence : 0 ≤ event.sequenceNumber) (t : Tables) :
    ∃ r, (Sql.exec (insert event) t).1 = .ok r := by
  rw [Store.insert, Sql.exec_transaction (stable_insertBody event)]
  simp only [insertBody, Sql.exec_query_bind]
  cases hq : t.quarantinedEvents.find? (identity event) with
  | some row => exact ⟨_, rfl⟩
  | none =>
    have hnonneg : ¬ event.sequenceNumber < 0 := by omega
    simp only [Sql.exec_statement_bind, insertIntake, hnonneg, if_false]
    cases hi : t.intakeEvents.insert ⟨event, .pending, 0⟩ with
    | some intake => exact ⟨_, rfl⟩
    | none =>
      -- the row in the way is the one looked up
      cases he : t.intakeEvents.find? (identity event) with
      | some row =>
        simp only [Nat.zero_ne_one, if_false, Sql.exec_query_bind, he]
        exact ⟨_, rfl⟩
      | none =>
        obtain ⟨r, hr, hid⟩ := Table.insert_eq_none.mp hi
        exact absurd hid (Table.find?_eq_none.mp he r hr)

theorem unhindered_insert (event : Event) : Sql.Unhindered (insert event) := by
  refine Sql.unhindered_transaction (stable_insertBody event) ?_
  refine Sql.unhindered_bind (Sql.stable_query ..) (Sql.unhindered_query _ _) fun quarantined => ?_
  cases quarantined with
  | some row => exact Sql.unhindered_ok _
  | none =>
    refine Sql.unhindered_bind (Sql.stable_statement ..) (Sql.unhindered_statement _ _)
      fun changes => ?_
    split
    · exact Sql.unhindered_ok _
    · refine Sql.unhindered_bind (Sql.stable_query ..) (Sql.unhindered_query _ _)
        fun existing => ?_
      cases existing with
      | none => exact Sql.unhindered_raise _
      | some row => exact Sql.unhindered_ok _

/-- For an accepted message the store throws only when one of its calls fails. -/
theorem fault_of_storeThrows [Nlohmann.Library] {topic payload receivedAt : Bytes} {event : Event}
    {c : Connection Tables} {what : String} (hparse : parse topic payload receivedAt = .ok event)
    (h : StoreThrows event c what) : true ∈ c.faults := by
  -- Without a fault both statements would have answered.
  by_contra hspared
  obtain ⟨-, -, -, -, doc, -, -, hfields⟩ := parse_eq_ok hparse
  obtain ⟨v, -, hcounter⟩ := hfields.sequenceNumber
  obtain ⟨n, -, -, -, hsequence, -⟩ := counter_eq_ok.mp hcounter
  obtain ⟨hresult, -, hfaults⟩ := unhindered_insert event c hspared
  rcases h with herr | ⟨c', hinsert, herr⟩
  · obtain ⟨r, hok⟩ := insert_returns hsequence c.data
    simp [hresult, hok] at herr
  · rw [hinsert] at hfaults
    have hdepth := (Sql.unhindered_query 2 (fun t : Tables => t.intakeEvents.rows.length) c'
      hfaults).1
    rw [Sql.exec_query] at hdepth
    rw [queueDepth, hdepth] at herr
    simp at herr

/-! ## The Client -/

/-- A message as the library hands it over; without a payload its length is negative. -/
structure Message where
  topic : Option Bytes
  payload : Option Bytes
  qos : Int
  retain : Bool

structure Client where
  fatal : Bool
  tables : Tables

/-- A message, the clock's reading and the faults of the store while it is handled. -/
structure Arrival where
  message : Option Message
  receivedAt : Bytes
  faults : List Bool

/-- `on_message_callback` with `Intake::receive` as its handler. -/
def onMessage [Nlohmann.Library] (self : Client) (arrival : Arrival) : Client :=
  match arrival.message with
  | some ⟨some topic, some payload, qos, retain⟩ =>
    -- the subscription is of QoS 1
    if qos ≠ 1 then self
    else
      match receive arrival.receivedAt topic payload retain ⟨self.tables, arrival.faults⟩ with
      | (.ok _, c) => ⟨self.fatal, c.data⟩
      | (.error _, c) => ⟨true, c.data⟩
  | _ => self

/-- One message fails the client only when a call of the store fails. -/
theorem onMessage_fatal [Nlohmann.Library] {self : Client} {arrival : Arrival}
    (hspared : true ∉ arrival.faults) :
    (onMessage self arrival).fatal = self.fatal := by
  unfold onMessage
  split
  · next topic payload qos retain _ =>
    split
    · rfl
    · split
      · rfl
      · next failure c hreceive =>
        have herror : (receive arrival.receivedAt topic payload retain ⟨self.tables, arrival.faults⟩).1 =
            .error failure := by rw [hreceive]
        obtain ⟨event, what, hparse, -, hthrows⟩ := receive_error herror
        exact absurd (fault_of_storeThrows hparse hthrows) hspared
  · rfl

/-- `parse` returns or rejects, and no conversion in it throws; so `receive` returns unless the store
throws, which no message brings about, and over any sequence of messages a working store keeps the
client from failing. -/
theorem message_never_fatal [Nlohmann.Library] :
    (∀ topic payload receivedAt, (∃ event, parse topic payload receivedAt = .ok event) ∨
      ∃ reason, parse topic payload receivedAt = .error (.invalidArgument reason) ∧
        reason ≠ "stoi") ∧
    (∀ receivedAt topic payload retained c failure,
      (receive receivedAt topic payload retained c).1 = .error failure →
        ∃ event what, parse topic payload receivedAt = .ok event ∧ failure = .store what ∧
          StoreThrows event c what ∧ true ∈ c.faults) ∧
    ∀ (arrivals : List Arrival) (self : Client), (∀ a ∈ arrivals, true ∉ a.faults) →
      (arrivals.foldl onMessage self).fatal = self.fatal := by
  refine ⟨fun topic payload receivedAt => ?_, ?_, ?_⟩
  · cases hparse : parse topic payload receivedAt with
    | ok event => exact .inl ⟨event, rfl⟩
    | error thrown =>
      obtain ⟨reason, rfl, hreason⟩ := parse_refuses topic payload receivedAt thrown hparse
      exact .inr ⟨reason, rfl, hreason⟩
  · intro receivedAt topic payload retained c failure h
    obtain ⟨event, what, hparse, hfailure, hthrows⟩ := receive_error h
    exact ⟨event, what, hparse, hfailure, hthrows, fault_of_storeThrows hparse hthrows⟩
  · intro arrivals
    induction arrivals with
    | nil => exact fun _ _ => rfl
    | cons a rest ih =>
      intro self hspared
      rw [List.foldl_cons, ih _ fun b hb => hspared b (List.mem_cons_of_mem _ hb)]
      exact onMessage_fatal (hspared a (List.mem_cons_self ..))

/-- A text that breaks off, and one that is no object. -/
def sampleArrivals : List Arrival :=
  [⟨some ⟨some sampleTopic, some (ascii "\x7b\"a\":"), 1, false⟩, sampleReceivedAt, []⟩,
    ⟨some ⟨some sampleTopic, some (ascii "[]"), 1, false⟩, sampleReceivedAt, []⟩]

theorem message_never_fatal_sample :
    (sampleArrivals.foldl onMessage ⟨false, .empty, .empty⟩).fatal = false :=
  message_never_fatal.2.2 sampleArrivals ⟨false, .empty, .empty⟩ (by simp [sampleArrivals])

end EquipmentMonitoring.Intake
