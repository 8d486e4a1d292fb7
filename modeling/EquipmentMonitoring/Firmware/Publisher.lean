import EquipmentMonitoring.Firmware.Telemetry

/-!
# The Publisher (`publisher_task`, `on_mqtt_event`, `telemetry_submit_temperature`)

One task takes readings from a queue, one after the other, and hands each to the MQTT client until
the client reports it published. The client's events reach the task through a second, shorter
queue, and are lost when that is full. The task is cut where it touches a queue, the clock or the
client, so that submissions and events can come between any two of its steps.

## Layers

- `Task`, `System`: the task's variables, and what surrounds it
- `System.step`: a submission, an event of the client or the next step of the task
- `Sound`: what holds in every state
- `delivers_in_order`: each reading is sent until it is acknowledged, and none overtakes another
-/

namespace EquipmentMonitoring.Firmware

/-! ## State -/

/-- A call of `esp_mqtt_client_enqueue`: for which reading, with which payload, and its result. -/
structure Attempt where
  sequenceNumber : Int64
  payload : Bytes
  messageId : Int
deriving DecidableEq

/-- `mqtt_signal_t`. A publication is reported by its message id; the copy it is a report of is not
known to the task. -/
inductive Signal where
  | connected
  | disconnected
  | published (copy : Attempt)

/-- Where the task stands in its loop. -/
inductive TaskPoint where
  /-- At the receipt that waits for a signal. -/
  | waiting
  /-- At the receipt behind a signal. -/
  | draining
  | taking
  | checking
  | sending
deriving DecidableEq

/-- The variables of `publisher_task`. -/
structure Task where
  point : TaskPoint
  pending : QueuedReading
  payload : Bytes
  connected : Bool
  havePending : Bool
  outstanding : Int
  sentAt : UInt32

/-- The device: its queues, its task, the copies the client may still report published, and what
has happened. -/
structure System where
  identity : IdentityContext
  readings : List QueuedReading
  signals : List Signal
  task : Task
  unreported : List Attempt
  /-- Readings that got into the queue, in order. -/
  accepted : List QueuedReading
  /-- Readings the task has taken from the queue, in order. -/
  taken : List QueuedReading
  /-- Calls of the client, in order. -/
  attempts : List Attempt
  /-- Readings that were cleared, each with the copy whose report cleared it. -/
  cleared : List (Int64 × Attempt)

/-- What does not change during a boot. -/
structure Device where
  deviceId : CString
  bootId : CString
  /-- `pdMS_TO_TICKS(MQTT_ACK_RETRY_MS)`. -/
  ackRetryTicks : UInt32

/-- `TELEMETRY_QUEUE_LENGTH`. -/
def readingQueueLength : Nat := 32

def signalQueueLength : Nat := 8

inductive Action where
  | submit (celsius : Binary32) (clocks : Clocks)
  | mqttConnected
  | mqttDisconnected
  /-- The client reports a copy published. -/
  | mqttPublished (copy : Attempt)
  /-- The client will not report this copy any more. -/
  | mqttForget (copy : Attempt)
  /-- The next step of the task, with the tick count and the result of an enqueue. -/
  | publisher (tick : UInt32) (messageId : Int)

/-! ## Steps -/

namespace System

/-- `telemetry_submit_temperature`; there is one submitting task. -/
def submit (s : System) (celsius : Binary32) (clocks : Clocks) : System :=
  match identityNextSequence s.identity with
  | (none, _) => s
  | (some sequence, identity) =>
    let reading := newReading celsius clocks sequence
    if readingQueueLength ≤ s.readings.length then { s with identity }
    else { s with identity, readings := s.readings ++ [reading], accepted := s.accepted ++ [reading] }

/-- `xQueueSend(s_signals, ..)`: a signal that finds the queue full is lost. -/
def send (s : System) (signal : Signal) : System :=
  if signalQueueLength ≤ s.signals.length then s
  else { s with signals := s.signals ++ [signal] }

/-- The body of the loop over signals. -/
def handleSignal (s : System) : Signal → System
  | .connected => { s with task := { s.task with connected := true, outstanding := -1 } }
  -- the pending reading stays: it is sent again after the next connection
  | .disconnected => { s with task := { s.task with connected := false, outstanding := -1 } }
  | .published copy =>
    -- only the copy that is outstanding clears the reading
    if s.task.havePending ∧ s.task.outstanding = copy.messageId then
      { s with
        task := { s.task with havePending := false, outstanding := -1 }
        cleared := s.cleared ++ [(s.task.pending.sequenceNumber, copy)] }
    else s

def goto (s : System) (point : TaskPoint) : System := { s with task := { s.task with point } }

/-- A signal is handled, or the loop over signals is over. -/
def receiveSignal (s : System) : System :=
  match s.signals with
  | [] => s.goto .taking
  | signal :: rest => ({ s with signals := rest }.handleSignal signal).goto .draining

/-- A reading is taken up and written once; one that cannot be written is dropped. -/
def takeReading (device : Device) (s : System) : System :=
  match s.task.havePending, s.readings with
  | false, reading :: rest =>
    match telemetryEncode (eventOf device.deviceId device.bootId reading) payloadSize with
    | .ok w =>
      { s with
        readings := rest
        taken := s.taken ++ [reading]
        task := { s.task with pending := reading, payload := w.text, havePending := true } }
    -- a reading that cannot be encoded is dropped
    | .error w =>
      { s with
        readings := rest
        taken := s.taken ++ [reading]
        task := { s.task with pending := reading, payload := w.text } }
  | _, _ => s

/-- An acknowledgement that has not come in time is not waited for any longer. -/
def checkTimeout (device : Device) (s : System) (tick : UInt32) : System :=
  if s.task.connected ∧ s.task.havePending ∧ 0 ≤ s.task.outstanding ∧
      device.ackRetryTicks ≤ tick - s.task.sentAt then
    { s with task := { s.task with outstanding := -1 } }
  else s

/-- The call for the pending reading. -/
def attempt (s : System) (messageId : Int) : Attempt :=
  ⟨s.task.pending.sequenceNumber, s.task.payload, messageId⟩

/-- There is a reading to send, and nothing is waited for. -/
def ready (s : System) : Prop :=
  s.task.connected = true ∧ s.task.havePending = true ∧ s.task.outstanding < 0

instance (s : System) : Decidable s.ready := inferInstanceAs (Decidable (_ ∧ _ ∧ _))

/-- `esp_mqtt_client_enqueue`, when it is called. -/
def sendPending (s : System) (tick : UInt32) (messageId : Int) : System :=
  if s.ready then
    if 0 ≤ messageId then
      { s with
        task := { s.task with outstanding := messageId, sentAt := tick }
        attempts := s.attempts ++ [s.attempt messageId]
        unreported := s.attempt messageId :: s.unreported }
    -- the client refused the message: the reading stays pending and is tried again
    else { s with attempts := s.attempts ++ [s.attempt messageId] }
  else s

/-- The next step of the task. -/
def publisher (device : Device) (s : System) (tick : UInt32) (messageId : Int) : System :=
  match s.task.point with
  | .waiting => s.receiveSignal
  | .draining => s.receiveSignal
  | .taking => (s.takeReading device).goto .checking
  | .checking => (s.checkTimeout device tick).goto .sending
  | .sending => (s.sendPending tick messageId).goto .waiting

def step (device : Device) (s : System) : Action → System
  | .submit celsius clocks => s.submit celsius clocks
  | .mqttConnected => s.send .connected
  | .mqttDisconnected => s.send .disconnected
  | .mqttPublished copy =>
    -- an acknowledgement exists only for a copy that was sent
    if copy ∈ s.unreported then s.send (.published copy) else s
  | .mqttForget copy => { s with unreported := s.unreported.filter (· ≠ copy) }
  | .publisher tick messageId => s.publisher device tick messageId

def run (device : Device) (s : System) (actions : List Action) : System :=
  actions.foldl (step device) s

end System

/-- A reading of zeros: `{0}`. -/
def zeroReading : QueuedReading :=
  ⟨0, 0, .finite ⟨false, 0, 0, by decide, by decide⟩, ⟨[], by simp⟩⟩

/-- The device when `publisher_task` is created. -/
def System.start (identity : IdentityContext) : System where
  identity := identity
  readings := []
  signals := []
  task := ⟨.waiting, zeroReading, [], false, false, -1, 0⟩
  unreported := []
  accepted := []
  taken := []
  attempts := []
  cleared := []

/-! ## Assumptions -/

/-- The values callers submit, and a clock that counts up from the boot. -/
def Action.InRange : Action → Prop
  | .submit celsius clocks =>
    (∃ x, celsius = .finite x ∧ -55 ≤ x.toRat ∧ x.toRat ≤ 125) ∧ 0 ≤ clocks.timerUs.toInt
  | _ => True

/-- The copies whose report can still come: from the client, or from the queue. -/
def System.reportable (s : System) : List Attempt :=
  s.unreported ++ s.signals.filterMap fun
    | .published copy => some copy
    | _ => none

/-- The client returns no message id while a report of it can still come. -/
def System.FreshId (s : System) : Action → Prop
  | .publisher _ messageId =>
    s.task.point = .sending ∧ s.ready → 0 ≤ messageId → ∀ copy ∈ s.reportable, copy.messageId ≠ messageId
  | _ => True

/-- So it is in every step of a run. -/
def System.FreshIds (device : Device) : System → List Action → Prop
  | _, [] => True
  | s, action :: rest => s.FreshId action ∧ FreshIds device (s.step device action) rest

instance (s : System) : DecidablePred s.FreshId
  | .publisher _ messageId => inferInstanceAs (Decidable
    (_ ∧ _ → 0 ≤ messageId → ∀ copy ∈ s.reportable, copy.messageId ≠ messageId))
  | .submit .. | .mqttConnected | .mqttDisconnected | .mqttPublished _ | .mqttForget _ =>
    inferInstanceAs (Decidable True)

instance decidableFreshIds (device : Device) (s : System) :
    (actions : List Action) → Decidable (s.FreshIds device actions)
  | [] => inferInstanceAs (Decidable True)
  | action :: rest =>
    have := decidableFreshIds device (s.step device action) rest
    inferInstanceAs (Decidable (_ ∧ _))

/-! ## Every State -/

/-- The text a reading is published as. -/
def payloadOf (device : Device) (reading : QueuedReading) : Bytes :=
  match telemetryEncode (eventOf device.deviceId device.bootId reading) payloadSize with
  | .ok w => w.text
  | .error w => w.text

/-- What holds in every state. -/
structure Sound (device : Device) (s : System) : Prop where
  /-- The queue holds what was accepted and not yet taken. -/
  queue : s.accepted = s.taken ++ s.readings
  numbered : (s.accepted.map fun r => r.sequenceNumber.toInt).Pairwise (· < ·)
  numbers_lt : ∀ r ∈ s.accepted, r.sequenceNumber.toInt < s.identity.nextSequence.toNat
  submitted : ∀ r ∈ s.accepted, ∃ x, Submitted r x
  /-- The pending reading is the last one taken. -/
  pending : s.task.havePending = true →
    (∃ before, s.taken = before ++ [s.task.pending]) ∧ s.task.payload = payloadOf device s.task.pending
  /-- Every reading taken before was sent, and is cleared. -/
  sent : ∀ r ∈ s.taken, (s.task.havePending = true ∧ r = s.task.pending) ∨
    ∃ copy, (r.sequenceNumber, copy) ∈ s.cleared
  attempts_of : ∀ a ∈ s.attempts, ∃ r ∈ s.taken,
    a.sequenceNumber = r.sequenceNumber ∧ a.payload = payloadOf device r
  attempts_ordered : (s.attempts.map fun a => a.sequenceNumber.toInt).Pairwise (· ≤ ·)
  outstanding : 0 ≤ s.task.outstanding → s.task.connected = true ∧ s.task.havePending = true ∧
    ∃ a ∈ s.attempts, a.sequenceNumber = s.task.pending.sequenceNumber ∧
      a.messageId = s.task.outstanding
  reported : ∀ copy ∈ s.reportable, copy ∈ s.attempts ∧ 0 ≤ copy.messageId
  cleared : ∀ c ∈ s.cleared, c.2 ∈ s.attempts ∧ ∃ a ∈ s.attempts, a.sequenceNumber = c.1 ∧
    a.messageId = c.2.messageId ∧ 0 ≤ a.messageId

/-- No reading taken has a later number than the last one. -/
theorem Sound.number_le {device : Device} {s : System} (h : Sound device s)
    {before : List QueuedReading} {last r : QueuedReading} (htaken : s.taken = before ++ [last])
    (hr : r ∈ s.taken) : r.sequenceNumber.toInt ≤ last.sequenceNumber.toInt := by
  have hnumbered := h.numbered
  rw [h.queue, htaken, List.map_append, List.map_append, List.append_assoc,
    List.pairwise_append] at hnumbered
  rw [htaken] at hr
  rcases List.mem_append.mp hr with hr | hr
  · exact (hnumbered.2.2 _ (List.mem_map_of_mem hr) _ (List.mem_cons_self ..)).le
  · rw [List.mem_singleton.mp hr]

/-- What holds besides when message ids are fresh: a report of the id waited for is a report of the
pending reading. -/
structure Acknowledged (s : System) : Prop where
  reported : 0 ≤ s.task.outstanding → ∀ copy ∈ s.reportable,
    copy.messageId = s.task.outstanding → copy.sequenceNumber = s.task.pending.sequenceNumber
  cleared : ∀ c ∈ s.cleared, c.2.sequenceNumber = c.1


/-! ## What Each Step Keeps -/

section Steps

variable {device : Device} {s : System}

theorem not_waiting : ¬ (0 : Int) ≤ -1 := by decide

theorem goto_sound (h : Sound device s) (point : TaskPoint) : Sound device (s.goto point) :=
  ⟨h.queue, h.numbered, h.numbers_lt, h.submitted, h.pending, h.sent, h.attempts_of,
    h.attempts_ordered, h.outstanding, h.reported, h.cleared⟩

/-- Losing signals and copies is harmless. -/
theorem reportable_sound (h : Sound device s) {signals : List Signal} {unreported : List Attempt}
    (hsub : ∀ copy ∈ { s with signals, unreported }.reportable, copy ∈ s.reportable) :
    Sound device { s with signals, unreported } :=
  ⟨h.queue, h.numbered, h.numbers_lt, h.submitted, h.pending, h.sent, h.attempts_of,
    h.attempts_ordered, h.outstanding, fun copy hcopy => h.reported copy (hsub copy hcopy), h.cleared⟩

theorem submit_sound (h : Sound device s) {celsius : Binary32} {clocks : Clocks}
    (hrange : (Action.submit celsius clocks).InRange) : Sound device (s.submit celsius clocks) := by
  obtain ⟨⟨x, rfl, hx⟩, huptime⟩ := hrange
  unfold System.submit
  rcases identityNextSequence_cases s.identity with ⟨-, hnext⟩ | ⟨-, n, i, hnext, hn, hi⟩
  · rw [hnext]
    exact h
  · rw [hnext]
    -- The number is used up even when the queue is full and the reading is dropped.
    have hlater : ∀ r ∈ s.accepted, r.sequenceNumber.toInt < i.nextSequence.toNat := by
      intro r hr
      have hlt := h.numbers_lt r hr
      omega
    simp only
    split
    · exact ⟨h.queue, h.numbered, hlater, h.submitted, h.pending, h.sent, h.attempts_of,
        h.attempts_ordered, h.outstanding, h.reported, h.cleared⟩
    · have hnew : (newReading (.finite x) clocks n).sequenceNumber = n := rfl
      refine ⟨?_, ?_, ?_, ?_, h.pending, h.sent, h.attempts_of, h.attempts_ordered, h.outstanding,
        h.reported, h.cleared⟩
      · rw [h.queue, List.append_assoc]
      · rw [List.map_append, List.pairwise_append]
        refine ⟨h.numbered, List.pairwise_singleton _ _, fun a ha b hb => ?_⟩
        obtain ⟨r, hr, rfl⟩ := List.mem_map.mp ha
        obtain rfl := List.mem_singleton.mp hb
        have hlt := h.numbers_lt r hr
        rwa [← hn, ← hnew] at hlt
      · intro r hr
        rcases List.mem_append.mp hr with hr | hr
        · exact hlater r hr
        · obtain rfl := List.mem_singleton.mp hr
          rw [hnew, hn]
          simp only
          omega
      · intro r hr
        rcases List.mem_append.mp hr with hr | hr
        · exact h.submitted r hr
        · obtain rfl := List.mem_singleton.mp hr
          exact ⟨x, newReading_submitted hnext huptime hx⟩

theorem reportable_send {signal : Signal}
    (hsignal : ∀ copy, signal = .published copy → copy ∈ s.unreported) {copy : Attempt}
    (hcopy : copy ∈ { s with signals := s.signals ++ [signal] }.reportable) : copy ∈ s.reportable := by
  simp only [System.reportable, List.filterMap_append, List.mem_append] at hcopy ⊢
  rcases hcopy with hcopy | hcopy | hcopy
  · exact .inl hcopy
  · exact .inr hcopy
  · cases signal with
    | published c =>
      obtain rfl : copy = c := by simpa using hcopy
      exact .inl (hsignal copy rfl)
    | _ => simp at hcopy

theorem reportable_forget {copy forgotten : Attempt}
    (hcopy : copy ∈ { s with unreported := s.unreported.filter (· ≠ forgotten) }.reportable) :
    copy ∈ s.reportable := by
  simp only [System.reportable, List.mem_append] at hcopy ⊢
  exact hcopy.imp_left fun hmem => (List.mem_filter.mp hmem).1

theorem send_sound (h : Sound device s) {signal : Signal}
    (hsignal : ∀ copy, signal = .published copy → copy ∈ s.unreported) :
    Sound device (s.send signal) := by
  unfold System.send
  split
  · exact h
  · exact reportable_sound h fun copy hcopy => reportable_send hsignal hcopy

theorem handleSignal_sound (h : Sound device s) {signal : Signal}
    (hsignal : ∀ copy, signal = .published copy → copy ∈ s.attempts ∧ 0 ≤ copy.messageId) :
    Sound device (s.handleSignal signal) := by
  have hreset {connected : Bool} : Sound device
      { s with task := { s.task with connected, outstanding := -1 } } :=
    ⟨h.queue, h.numbered, h.numbers_lt, h.submitted, h.pending, h.sent, h.attempts_of,
      h.attempts_ordered, fun hpos => absurd hpos not_waiting, h.reported, h.cleared⟩
  cases signal with
  | connected => exact hreset
  | disconnected => exact hreset
  | published copy =>
    obtain ⟨hcopy, hpos⟩ := hsignal copy rfl
    rw [System.handleSignal]
    split
    · next hack =>
      obtain ⟨-, -, a, ha, hnumber, hid⟩ := h.outstanding (hack.2 ▸ hpos)
      refine ⟨h.queue, h.numbered, h.numbers_lt, h.submitted, fun hpending => absurd hpending (by simp),
        fun r hr => .inr ?_, h.attempts_of, h.attempts_ordered,
        fun hpos => absurd hpos not_waiting, h.reported, fun c hc => ?_⟩
      · rcases h.sent r hr with ⟨-, rfl⟩ | ⟨c, hc⟩
        · exact ⟨copy, List.mem_append_right _ (List.mem_singleton_self _)⟩
        · exact ⟨c, List.mem_append_left _ hc⟩
      · rcases List.mem_append.mp hc with hc | hc
        · exact h.cleared c hc
        · -- the id waited for was returned for the pending reading
          obtain rfl := List.mem_singleton.mp hc
          exact ⟨hcopy, a, ha, hnumber, hid.trans hack.2, by omega⟩
    · exact h

theorem mem_reportable_of_signal {signal : Signal} {rest : List Signal} (hs : s.signals = signal :: rest)
    {copy : Attempt} (h : signal = .published copy) : copy ∈ s.reportable := by
  rw [System.reportable, hs, h]
  exact List.mem_append_right _ (List.mem_cons_self ..)

theorem reportable_rest {signal : Signal} {rest : List Signal} (hs : s.signals = signal :: rest)
    {copy : Attempt} (h : copy ∈ { s with signals := rest }.reportable) : copy ∈ s.reportable := by
  simp only [System.reportable, List.mem_append, hs] at h ⊢
  refine h.imp_right fun hcopy => ?_
  obtain ⟨c, hc, hsome⟩ := List.mem_filterMap.mp hcopy
  exact List.mem_filterMap.mpr ⟨c, List.mem_cons_of_mem _ hc, hsome⟩

theorem receiveSignal_sound (h : Sound device s) : Sound device s.receiveSignal := by
  unfold System.receiveSignal
  split
  · exact goto_sound h _
  · next signal rest hs =>
    have hrest : Sound device { s with signals := rest } :=
      reportable_sound h fun copy hcopy => reportable_rest hs hcopy
    exact goto_sound (handleSignal_sound hrest fun copy hcopy =>
      h.reported copy (mem_reportable_of_signal hs hcopy)) _

theorem checkTimeout_sound (h : Sound device s) (tick : UInt32) :
    Sound device (s.checkTimeout device tick) := by
  unfold System.checkTimeout
  split
  · exact ⟨h.queue, h.numbered, h.numbers_lt, h.submitted, h.pending, h.sent, h.attempts_of,
      h.attempts_ordered, fun hpos => absurd hpos not_waiting, h.reported, h.cleared⟩
  · exact h

/-- A reading is taken up when nothing is pending, and can be written. -/
theorem takeReading_sound (h : Sound device s) (hdevice : isDeviceId device.deviceId.text = true)
    {mac : Mac} {counter : UInt64} (hboot : device.bootId = bootIdString mac counter) :
    Sound device (s.takeReading device) := by
  unfold System.takeReading
  split
  · next reading rest hpending hreadings =>
    have hmem : reading ∈ s.accepted := by
      rw [h.queue, hreadings]
      exact List.mem_append_right _ (List.mem_cons_self ..)
    obtain ⟨x, hx⟩ := h.submitted reading hmem
    have hencode : telemetryEncode (eventOf device.deviceId device.bootId reading) payloadSize =
        .ok (holding payloadSize (encoding (eventOf device.deviceId device.bootId reading) x)) := by
      rw [hboot]
      exact telemetryEncode_reading hdevice hx
    have hpayload : payloadOf device reading = (holding payloadSize
        (encoding (eventOf device.deviceId device.bootId reading) x)).text := by
      rw [payloadOf, hencode]
    rw [hencode]
    refine ⟨?_, h.numbered, h.numbers_lt, h.submitted, fun _ => ⟨⟨s.taken, rfl⟩, hpayload.symm⟩,
      fun r hr => ?_, fun a ha => ?_, h.attempts_ordered, fun hpos => ?_, h.reported, h.cleared⟩
    · rw [h.queue, hreadings, List.append_assoc]
      rfl
    · rcases List.mem_append.mp hr with hr | hr
      · rcases h.sent r hr with ⟨hold, -⟩ | hcleared
        · rw [hpending] at hold
          exact absurd hold (by simp)
        · exact .inr hcleared
      · exact .inl ⟨rfl, List.mem_singleton.mp hr⟩
    · obtain ⟨r, hr, hnumber, htext⟩ := h.attempts_of a ha
      exact ⟨r, List.mem_append_left _ hr, hnumber, htext⟩
    · -- nothing is waited for without a pending reading
      obtain ⟨-, hold, -⟩ := h.outstanding hpos
      rw [hpending] at hold
      exact absurd hold (by simp)
  · exact h

theorem sendPending_sound (h : Sound device s) (tick : UInt32) (messageId : Int) :
    Sound device (s.sendPending tick messageId) := by
  unfold System.sendPending
  split
  · next hready =>
    obtain ⟨hconnected, hpending, -⟩ := hready
    obtain ⟨⟨before, htaken⟩, hpayload⟩ := h.pending hpending
    have hlast : s.task.pending ∈ s.taken := by
      rw [htaken]
      exact List.mem_append_right _ (List.mem_singleton_self _)
    have hof : ∀ a ∈ s.attempts ++ [s.attempt messageId],
        ∃ r ∈ s.taken, a.sequenceNumber = r.sequenceNumber ∧ a.payload = payloadOf device r := by
      intro a ha
      rcases List.mem_append.mp ha with ha | ha
      · exact h.attempts_of a ha
      · obtain rfl := List.mem_singleton.mp ha
        exact ⟨_, hlast, rfl, hpayload⟩
    -- The pending reading is the newest taken, so its copies carry the largest number so far.
    have hordered : ((s.attempts ++ [s.attempt messageId]).map fun a =>
        a.sequenceNumber.toInt).Pairwise (· ≤ ·) := by
      rw [List.map_append, List.pairwise_append]
      refine ⟨h.attempts_ordered, List.pairwise_singleton _ _, fun m hm n hn => ?_⟩
      obtain ⟨a, ha, rfl⟩ := List.mem_map.mp hm
      obtain rfl := List.mem_singleton.mp hn
      obtain ⟨r, hr, hnumber, -⟩ := h.attempts_of a ha
      simp only [hnumber]
      exact h.number_le htaken hr
    have hcleared : ∀ c ∈ s.cleared, c.2 ∈ s.attempts ++ [s.attempt messageId] ∧
        ∃ a ∈ s.attempts ++ [s.attempt messageId],
          a.sequenceNumber = c.1 ∧ a.messageId = c.2.messageId ∧ 0 ≤ a.messageId := by
      intro c hc
      obtain ⟨hcopy, a, ha, hrest⟩ := h.cleared c hc
      exact ⟨List.mem_append_left _ hcopy, a, List.mem_append_left _ ha, hrest⟩
    split
    · next hid =>
      refine ⟨h.queue, h.numbered, h.numbers_lt, h.submitted, h.pending, h.sent, hof, hordered,
        fun _ => ⟨hconnected, hpending, _, List.mem_append_right _ (List.mem_singleton_self _), rfl, rfl⟩,
        fun copy hcopy => ?_, hcleared⟩
      rcases List.mem_cons.mp hcopy with rfl | hcopy
      · exact ⟨List.mem_append_right _ (List.mem_singleton_self _), hid⟩
      · exact (h.reported copy hcopy).imp_left (List.mem_append_left _)
    · refine ⟨h.queue, h.numbered, h.numbers_lt, h.submitted, h.pending, h.sent, hof, hordered,
        fun hpos => ?_, fun copy hcopy => (h.reported copy hcopy).imp_left (List.mem_append_left _),
        hcleared⟩
      obtain ⟨hc, hp, a, ha, hrest⟩ := h.outstanding hpos
      exact ⟨hc, hp, a, List.mem_append_left _ ha, hrest⟩
  · exact h

theorem publisher_sound (h : Sound device s) (hdevice : isDeviceId device.deviceId.text = true)
    {mac : Mac} {counter : UInt64} (hboot : device.bootId = bootIdString mac counter) (tick : UInt32)
    (messageId : Int) : Sound device (s.publisher device tick messageId) := by
  unfold System.publisher
  split
  · exact receiveSignal_sound h
  · exact receiveSignal_sound h
  · exact goto_sound (takeReading_sound h hdevice hboot) _
  · exact goto_sound (checkTimeout_sound h tick) _
  · exact goto_sound (sendPending_sound h tick messageId) _

theorem step_sound (h : Sound device s) (hdevice : isDeviceId device.deviceId.text = true)
    {mac : Mac} {counter : UInt64} (hboot : device.bootId = bootIdString mac counter)
    {action : Action} (hrange : action.InRange) : Sound device (s.step device action) := by
  cases action with
  | submit celsius clocks => exact submit_sound h hrange
  | mqttConnected => exact send_sound h (by simp)
  | mqttDisconnected => exact send_sound h (by simp)
  | mqttPublished copy =>
    simp only [System.step]
    split
    · next hcopy =>
      exact send_sound h fun c hc => by
        obtain rfl : copy = c := by simpa using hc
        exact hcopy
    · exact h
  | mqttForget copy => exact reportable_sound h fun c hc => reportable_forget hc
  | publisher tick messageId => exact publisher_sound h hdevice hboot tick messageId

theorem handleSignal_acknowledged (h : Sound device s) (hack : Acknowledged s) {signal : Signal}
    {rest : List Signal} (hs : s.signals = signal :: rest) :
    Acknowledged ({ s with signals := rest }.handleSignal signal) := by
  have hrest (copy : Attempt) (hcopy : copy ∈ { s with signals := rest }.reportable) :
      copy ∈ s.reportable := reportable_rest hs hcopy
  cases signal with
  | connected => exact ⟨fun hpos => absurd hpos not_waiting, hack.cleared⟩
  | disconnected => exact ⟨fun hpos => absurd hpos not_waiting, hack.cleared⟩
  | published copy =>
    have hcopy := mem_reportable_of_signal hs (rfl : Signal.published copy = .published copy)
    rw [System.handleSignal]
    split
    · next hid =>
      refine ⟨fun hpos => absurd hpos not_waiting, fun c hc => ?_⟩
      rcases List.mem_append.mp hc with hc | hc
      · exact hack.cleared c hc
      · obtain rfl := List.mem_singleton.mp hc
        -- the copy was sent under this id, which is therefore not a failure code
        have hpos : 0 ≤ s.task.outstanding := hid.2 ▸ (h.reported copy hcopy).2
        exact hack.reported hpos copy hcopy hid.2.symm
    · exact ⟨fun hpos c hc => hack.reported hpos c (hrest c hc), hack.cleared⟩

theorem publisher_acknowledged (h : Sound device s) (hack : Acknowledged s) {tick : UInt32}
    {messageId : Int} (hfresh : s.FreshId (.publisher tick messageId)) :
    Acknowledged (s.publisher device tick messageId) := by
  have hreceive : Acknowledged s.receiveSignal := by
    unfold System.receiveSignal
    split
    · exact ⟨hack.reported, hack.cleared⟩
    · next signal rest hs =>
      obtain ⟨hreported, hcleared⟩ := handleSignal_acknowledged h hack hs
      exact ⟨hreported, hcleared⟩
  unfold System.publisher
  split
  · exact hreceive
  · exact hreceive
  · -- a reading is taken up when nothing is waited for
    unfold System.takeReading
    split
    · next reading rest hpending hreadings =>
      have hnone : ¬ 0 ≤ s.task.outstanding := fun hpos => by
        have hhave := (h.outstanding hpos).2.1
        rw [hpending] at hhave
        exact absurd hhave (by simp)
      split
      · exact ⟨fun hpos => absurd hpos hnone, hack.cleared⟩
      · exact ⟨fun hpos => absurd hpos hnone, hack.cleared⟩
    · exact ⟨hack.reported, hack.cleared⟩
  · unfold System.checkTimeout
    split
    · exact ⟨fun hpos => absurd hpos not_waiting, hack.cleared⟩
    · exact ⟨hack.reported, hack.cleared⟩
  · next hpoint =>
    unfold System.sendPending
    split
    · next hready =>
      split
      · next hid =>
        refine ⟨fun _ copy hcopy heq => ?_, hack.cleared⟩
        rcases List.mem_cons.mp hcopy with rfl | hcopy
        · rfl
        · exact absurd heq (hfresh ⟨hpoint, hready⟩ hid copy hcopy)
      · exact ⟨hack.reported, hack.cleared⟩
    · exact ⟨hack.reported, hack.cleared⟩

theorem step_acknowledged (h : Sound device s) (hack : Acknowledged s) {action : Action}
    (hfresh : s.FreshId action) : Acknowledged (s.step device action) := by
  -- A signal that finds the queue full is lost, which leaves fewer copies to be reported.
  have hsend {signal : Signal} (hsignal : ∀ copy, signal = .published copy → copy ∈ s.unreported) :
      Acknowledged (s.send signal) := by
    unfold System.send
    split
    · exact hack
    · exact ⟨fun hpos copy hcopy => hack.reported hpos copy (reportable_send hsignal hcopy),
        hack.cleared⟩
  cases action with
  | submit celsius clocks =>
    simp only [System.step, System.submit]
    split
    · exact hack
    · split
      · exact ⟨hack.reported, hack.cleared⟩
      · exact ⟨hack.reported, hack.cleared⟩
  | mqttConnected => exact hsend (by simp)
  | mqttDisconnected => exact hsend (by simp)
  | mqttPublished copy =>
    simp only [System.step]
    split
    · next hcopy =>
      exact hsend fun c hc => by
        obtain rfl : copy = c := by simpa using hc
        exact hcopy
    · exact hack
  | mqttForget copy =>
    exact ⟨fun hpos c hc => hack.reported hpos c (reportable_forget hc), hack.cleared⟩
  | publisher tick messageId => exact publisher_acknowledged h hack hfresh

end Steps

/-! ## Runs -/

section Runs

variable {device : Device} (hdevice : isDeviceId device.deviceId.text = true) {mac : Mac}
  {counter : UInt64} (hboot : device.bootId = bootIdString mac counter)

theorem start_sound (device : Device) (identity : IdentityContext) :
    Sound device (System.start identity) :=
  ⟨rfl, .nil, by simp [System.start], by simp [System.start], by simp [System.start],
    by simp [System.start], by simp [System.start], .nil, fun hpos => absurd hpos not_waiting,
    by simp [System.start, System.reportable], by simp [System.start]⟩

theorem start_acknowledged (identity : IdentityContext) : Acknowledged (System.start identity) :=
  ⟨fun hpos => absurd hpos not_waiting, by simp [System.start]⟩

include hdevice hboot

theorem run_sound {s : System} (h : Sound device s) {actions : List Action}
    (hrange : ∀ action ∈ actions, action.InRange) : Sound device (s.run device actions) := by
  induction actions generalizing s with
  | nil => exact h
  | cons action rest ih =>
    exact ih (step_sound h hdevice hboot (hrange action (List.mem_cons_self ..)))
      fun a ha => hrange a (List.mem_cons_of_mem _ ha)

theorem run_acknowledged {s : System} (h : Sound device s) (hack : Acknowledged s)
    {actions : List Action} (hrange : ∀ action ∈ actions, action.InRange)
    (hfresh : s.FreshIds device actions) : Acknowledged (s.run device actions) := by
  induction actions generalizing s with
  | nil => exact hack
  | cons action rest ih =>
    exact ih (step_sound h hdevice hboot (hrange action (List.mem_cons_self ..)))
      (step_acknowledged h hack hfresh.1) (fun a ha => hrange a (List.mem_cons_of_mem _ ha)) hfresh.2

end Runs

/-- The number of a reading names it. -/
theorem Sound.payload_eq {device : Device} {s : System} (h : Sound device s) {a b : Attempt}
    (ha : a ∈ s.attempts) (hb : b ∈ s.attempts) (hnumber : a.sequenceNumber = b.sequenceNumber) :
    a.payload = b.payload := by
  obtain ⟨r, hr, hra, hpa⟩ := h.attempts_of a ha
  obtain ⟨r', hr', hrb, hpb⟩ := h.attempts_of b hb
  have hdistinct : (s.accepted.map fun r => r.sequenceNumber.toInt).Nodup :=
    h.numbered.imp ne_of_lt
  have haccepted (r : QueuedReading) (hr : r ∈ s.taken) : r ∈ s.accepted := by
    rw [h.queue]
    exact List.mem_append_left _ hr
  obtain rfl : r = r' := by
    apply List.inj_on_of_nodup_map hdistinct (haccepted r hr) (haccepted r' hr')
    rw [← hra, ← hrb, hnumber]
  rw [hpa, hpb]

/-- The publisher delivers at least once and in order. -/
theorem delivers_in_order (settings config : AppConfig)
    (hconfig : appConfigLoad settings = .ok config) (mac : Mac) (calls : BootCalls)
    (stored stored' : Option UInt64) (bootId : CString)
    (hboot : bootIdCreate mac calls stored = (.ok bootId.text, stored')) (ackRetryTicks : UInt32)
    (identity : IdentityContext) (actions : List Action)
    (hrange : ∀ action ∈ actions, action.InRange) :
    let device : Device := ⟨config.deviceId, bootId, ackRetryTicks⟩
    let s := (System.start identity).run device actions
    -- a reading is cleared by the report of a message id returned for it
    (∀ c ∈ s.cleared, ∃ a ∈ s.attempts, a.sequenceNumber = c.1 ∧ a.messageId = c.2.messageId ∧
      0 ≤ a.messageId) ∧
    ((System.start identity).FreshIds device actions →
      ∀ c ∈ s.cleared, c.2 ∈ s.attempts ∧ c.2.sequenceNumber = c.1) ∧
    -- none is skipped, and none is overtaken
    s.accepted = s.taken ++ s.readings ∧
    (∀ r ∈ s.taken, (s.task.havePending = true ∧ r = s.task.pending ∧ s.taken.getLast? = some r) ∨
      ∃ copy, (r.sequenceNumber, copy) ∈ s.cleared) ∧
    (∀ a ∈ s.attempts, ∃ r ∈ s.taken, a.sequenceNumber = r.sequenceNumber) ∧
    (s.attempts.map fun a => a.sequenceNumber.toInt).Pairwise (· ≤ ·) ∧
    -- a reading is always sent as the same text
    (∀ a ∈ s.attempts, ∀ b ∈ s.attempts, a.sequenceNumber = b.sequenceNumber →
      a.payload = b.payload) ∧
    (0 ≤ s.task.outstanding → s.task.connected = true ∧ s.task.havePending = true) := by
  obtain ⟨rfl, hdevice⟩ := appConfigLoad_eq_ok hconfig
  obtain ⟨counter, hbootText⟩ := bootIdCreate_eq_ok hboot
  obtain rfl : bootId = bootIdString mac counter := CString.ext hbootText
  intro device s
  have h : Sound device s := run_sound hdevice rfl (start_sound device identity) hrange
  refine ⟨fun c hc => (h.cleared c hc).2, fun hfresh c hc => ⟨(h.cleared c hc).1, ?report⟩, h.queue,
    fun r hr => (h.sent r hr).imp_left fun hlast => ⟨hlast.1, hlast.2, ?last⟩,
    fun a ha => ?taken, h.attempts_ordered, fun a ha b hb => h.payload_eq ha hb,
    fun hpos => ⟨(h.outstanding hpos).1, (h.outstanding hpos).2.1⟩⟩
  case report =>
    have hack : Acknowledged s := run_acknowledged hdevice rfl (start_sound device identity)
      (start_acknowledged identity) hrange hfresh
    exact hack.cleared c hc
  case last =>
    obtain ⟨before, htaken⟩ := (h.pending hlast.1).1
    rw [htaken, hlast.2]
    exact List.getLast?_concat ..
  case taken =>
    obtain ⟨r, hr, hnumber, -⟩ := h.attempts_of a ha
    exact ⟨r, hr, hnumber⟩

def sampleRunning : Device := ⟨sampleSettings.deviceId, bootIdString sampleMac 8, 30000⟩

/-- A copy of the reading with a number. -/
def sampleCopy (number : Int64) (messageId : Int) : Attempt :=
  ⟨number, payloadOf sampleRunning (newReading (.finite sampleCelsius) sampleClocks number), messageId⟩

/-- Two readings are queued before the client is connected. The first is sent, not acknowledged in
time and sent again; its second copy is reported, and the second reading is sent. -/
def sampleActions : List Action :=
  [.submit (.finite sampleCelsius) sampleClocks, .submit (.finite sampleCelsius) sampleClocks,
    .mqttConnected, .publisher 0 0, .publisher 0 0, .publisher 0 0, .publisher 0 0, .publisher 5 7,
    -- nothing is received, and the time is over
    .publisher 30005 0, .publisher 30005 0, .publisher 30005 0, .publisher 30006 8,
    .mqttPublished (sampleCopy 0 8), .publisher 30007 0, .publisher 30007 0, .publisher 30008 0,
    .publisher 30008 0, .publisher 30009 9]

theorem sampleActions_inRange : ∀ action ∈ sampleActions, action.InRange := by
  have hcelsius : -55 ≤ sampleCelsius.toRat ∧ sampleCelsius.toRat ≤ 125 := by
    norm_num [FiniteFloat.toRat, sampleCelsius]
  have hsubmit : (Action.submit (.finite sampleCelsius) sampleClocks).InRange :=
    ⟨⟨_, rfl, hcelsius⟩, by decide⟩
  intro action haction
  simp only [sampleActions, List.mem_cons, List.not_mem_nil, or_false] at haction
  rcases haction with rfl | rfl | haction
  · exact hsubmit
  · exact hsubmit
  · rcases haction with rfl | rfl | rfl | rfl | rfl | rfl | rfl | rfl | rfl | rfl | rfl | rfl | rfl |
      rfl | rfl | rfl <;> trivial

theorem delivers_in_order_sample :
    let s := (System.start ⟨bootIdText sampleMac 8, 0⟩).run sampleRunning sampleActions
    s.attempts = [sampleCopy 0 7, sampleCopy 0 8, sampleCopy 1 9] ∧
    s.cleared = [(0, sampleCopy 0 8)] ∧
    (∀ c ∈ s.cleared, c.2 ∈ s.attempts ∧ c.2.sequenceNumber = c.1) ∧
    (∀ a ∈ s.attempts, ∀ b ∈ s.attempts, a.sequenceNumber = b.sequenceNumber →
      a.payload = b.payload) ∧
    s.task.outstanding = 9 ∧ s.task.connected = true ∧ s.task.havePending = true := by
  intro s
  have hfresh : (System.start ⟨bootIdText sampleMac 8, 0⟩).FreshIds sampleRunning sampleActions := by
    decide +kernel
  obtain ⟨hattempts, hcleared, houtstanding⟩ :
      s.attempts = [sampleCopy 0 7, sampleCopy 0 8, sampleCopy 1 9] ∧
        s.cleared = [(0, sampleCopy 0 8)] ∧ s.task.outstanding = 9 := by
    decide +kernel
  obtain ⟨-, hreport, -, -, -, -, hpayload, hwaiting⟩ := delivers_in_order sampleSettings
    sampleSettings rfl sampleMac sampleBoot (some 7) (some 8) (bootIdString sampleMac 8) rfl 30000
    ⟨bootIdText sampleMac 8, 0⟩ sampleActions sampleActions_inRange
  exact ⟨hattempts, hcleared, hreport hfresh, hpayload, houtstanding,
    hwaiting (houtstanding.symm ▸ by decide : 0 ≤ s.task.outstanding)⟩

end EquipmentMonitoring.Firmware
