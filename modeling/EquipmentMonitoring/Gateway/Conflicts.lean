import EquipmentMonitoring.Gateway.Intake

/-!
# Messages Under a Known Identity (`intake.cpp`, `sqlite/store.cpp`)

A message that is stored becomes a row. A message under an identity that has a row already is
compared with it, byte for byte, and leaves the tables as they are: a replay has its bytes there,
and of a conflict only a line in the log remains.

## Key Results

- `receive_effect`: what `receive` does to the tables with an accepted message
- `evidence_kept_iff`: a payload is kept as evidence unless it conflicts
- `conflict_dropped`: two messages under one identity, the second of which is recorded nowhere
-/

namespace EquipmentMonitoring.Store

open EquipmentMonitoring.Telemetry

/-! ## Recorded Payloads -/

/-- A row of this identity has these bytes. -/
def RecordedAs (t : Tables) (id : Identity) (payload : Bytes) : Prop :=
  (∃ r ∈ t.intakeEvents, identity r.event = id ∧ r.event.mqttPayload = payload) ∨
    ∃ q ∈ t.quarantinedEvents, identity q.event = id ∧ q.event.mqttPayload = payload

/-- What is promised about a payload: queued when its identity is new, in quarantine when it
conflicts, and the rows that were there are as they were. -/
structure KeptAsEvidence (event : Event) (t t' : Tables) : Prop where
  recorded : RecordedAs t' (identity event) event.mqttPayload
  queued : ¬Recorded t (identity event) →
    ∃ r ∈ t'.intakeEvents, r.event = event ∧ r.state = .pending
  quarantined : Recorded t (identity event) → ¬RecordedAs t (identity event) event.mqttPayload →
    ∃ q ∈ t'.quarantinedEvents, identity q.event = identity event ∧
      q.event.mqttPayload = event.mqttPayload
  intakeUnaltered : ∀ r ∈ t.intakeEvents, r ∈ t'.intakeEvents
  quarantineUnaltered : ∀ q ∈ t.quarantinedEvents, q ∈ t'.quarantinedEvents

theorem RecordedAs.recorded {t : Tables} {id : Identity} {payload : Bytes}
    (h : RecordedAs t id payload) : Recorded t id := by
  rcases h with ⟨r, hr, hid, -⟩ | ⟨q, hq, hid, -⟩
  · exact .inl ⟨r, hr, hid⟩
  · exact .inr ⟨q, hq, hid⟩

/-- A new row keeps everything that is promised. -/
theorem keptAsEvidence_inserted {event : Event} {t t' : Tables} (h : Inserted event t t') :
    KeptAsEvidence event t t' := by
  have hrow : (⟨event, .pending, 0⟩ : QueuedEvent) ∈ t'.intakeEvents := by
    rw [Table.mem_def, h.intake]
    exact List.mem_append_right _ (List.mem_singleton_self _)
  exact {
    recorded := .inl ⟨_, hrow, rfl, rfl⟩
    queued := fun _ => ⟨_, hrow, rfl, rfl⟩
    -- a new identity has no conflict to quarantine
    quarantined := fun hrecorded => absurd hrecorded h.fresh
    intakeUnaltered := fun r hr => by
      rw [Table.mem_def, h.intake]
      exact List.mem_append_left _ hr
    quarantineUnaltered := fun q hq => by
      rw [h.quarantine]
      exact hq }

/-- Tables that are left alone keep what is recorded in them already. -/
theorem keptAsEvidence_unchanged {event : Event} {t : Tables}
    (hrecorded : Recorded t (identity event)) :
    KeptAsEvidence event t t ↔ RecordedAs t (identity event) event.mqttPayload := by
  constructor
  · exact fun h => h.recorded
  · intro h
    exact {
      recorded := h
      queued := fun hfresh => absurd hrecorded hfresh
      quarantined := fun _ hconflict => absurd h hconflict
      intakeUnaltered := fun _ hr => hr
      quarantineUnaltered := fun _ hq => hq }

/-- What an insertion does is enough for every payload that does not conflict. -/
theorem keptAsEvidence_iff {event : Event} {t t' : Tables} {result : InsertResult}
    (h : InsertEffect event t result t') : KeptAsEvidence event t t' ↔
      (Recorded t (identity event) → RecordedAs t (identity event) event.mqttPayload) := by
  cases h with
  | inserted _ h =>
    exact iff_of_true (keptAsEvidence_inserted h) fun hrecorded => absurd hrecorded h.fresh
  | known recorded h =>
    have hrecorded : Recorded t (identity event) := RecordedAs.recorded h
    rw [keptAsEvidence_unchanged hrecorded]
    exact ⟨fun hkept _ => hkept, fun hkept => hkept hrecorded⟩

end EquipmentMonitoring.Store

namespace EquipmentMonitoring.Intake

open EquipmentMonitoring.Store EquipmentMonitoring.Telemetry

/-! ## Received Messages -/

/-- When `receive` returns, an accepted message has been inserted; the count for the log reads. -/
theorem receive_effect [Nlohmann.Library] {receivedAt topic payload : Bytes} {event : Event}
    {c c' : Connection Tables} {outcome : Received}
    (hparse : parse topic payload receivedAt = .ok event)
    (h : receive receivedAt topic payload false c = (.ok outcome, c')) :
    ∃ result, InsertEffect event c.data result c'.data := by
  unfold receive at h
  simp only [Bool.false_eq_true, if_false, hparse] at h
  rcases hinsert : insert event c with ⟨what | result, c₁⟩
  · simp [hinsert] at h
  · have heffect : InsertEffect event c.data result c₁.data := by
      rcases insert_spec event c with ⟨what, herror, -⟩ | ⟨r, hr, heffect⟩
      · simp [hinsert] at herror
      · obtain rfl : result = r := by simpa [hinsert] using hr
        simpa [hinsert] using heffect
    refine ⟨result, ?_⟩
    cases result with
    | inserted =>
      simp only [hinsert] at h
      rcases hdepth : queueDepth c₁ with ⟨what | depth, c₂⟩
      · simp [hdepth] at h
      · -- counting the rows leaves them alone
        have hdata : c₂.data = c₁.data := by
          have hread : (queueDepth c₁).2.data = c₁.data :=
            Sql.readOnly_statement (fun d n d' hd => by simp_all) c₁
          rwa [hdepth] at hread
        simp only [hdepth, Prod.mk.injEq] at h
        rw [← h.2, hdata]
        exact heffect
    | duplicate =>
      simp only [hinsert, Prod.mk.injEq] at h
      exact h.2 ▸ heffect
    | identityConflict =>
      simp only [hinsert, Prod.mk.injEq] at h
      exact h.2 ▸ heffect

/-- Whatever is in the store, a payload that is received is kept as evidence exactly when its
identity is new or a row of it has the same bytes. -/
theorem evidence_kept_iff [Nlohmann.Library] {receivedAt topic payload : Bytes} {event : Event}
    {c c' : Connection Tables} {outcome : Received}
    (hparse : parse topic payload receivedAt = .ok event)
    (h : receive receivedAt topic payload false c = (.ok outcome, c')) :
    event.mqttPayload = payload ∧
    (KeptAsEvidence event c.data c'.data ↔
      (Recorded c.data (identity event) → RecordedAs c.data (identity event) payload)) := by
  obtain ⟨hpayload, -⟩ := parse_eq_ok hparse
  obtain ⟨result, heffect⟩ := receive_effect hparse h
  exact ⟨hpayload, hpayload ▸ keptAsEvidence_iff heffect⟩

def noRows : Connection Tables := ⟨⟨Table.empty, Table.empty⟩, []⟩

theorem evidence_kept_sample : ∃ outcome c',
    receive sampleReceivedAt sampleTopic samplePayload false noRows = (.ok outcome, c') ∧
    KeptAsEvidence sampleEvent noRows.data c'.data := by
  obtain ⟨outcome, c', h⟩ : ∃ outcome c',
      receive sampleReceivedAt sampleTopic samplePayload false noRows = (.ok outcome, c') := by
    unfold receive
    rw [parse_sample]
    exact ⟨_, _, rfl⟩
  refine ⟨outcome, c', h, (evidence_kept_iff parse_sample h).2.mpr ?_⟩
  rintro (⟨r, hr, -⟩ | ⟨q, hq, -⟩)
  · exact absurd hr (Table.not_mem_empty r)
  · exact absurd hq (Table.not_mem_empty q)

/-- The sample with a space at its end: another text under the same identity. -/
def changedPayload : Bytes := samplePayload ++ [0x20]

def changedEvent : Event := { sampleEvent with mqttPayload := changedPayload }

theorem parse_changed : parse sampleTopic changedPayload sampleReceivedAt = .ok changedEvent := by
  decide +kernel

set_option maxRecDepth 8000 in
/-- Both messages are handled without an error, and nothing holds the second one. -/
theorem conflict_dropped : ∃ c c',
    receive sampleReceivedAt sampleTopic samplePayload false noRows = (.ok (.stored 1), c) ∧
    receive sampleReceivedAt sampleTopic changedPayload false c = (.ok .identityConflict, c') ∧
    identity changedEvent = identity sampleEvent ∧
    parse sampleTopic changedPayload sampleReceivedAt = .ok changedEvent ∧
    ¬RecordedAs c'.data (identity changedEvent) changedPayload ∧
    ¬KeptAsEvidence changedEvent c.data c'.data := by
  have hfirst : ∃ c : Connection Tables,
      receive sampleReceivedAt sampleTopic samplePayload false noRows = (.ok (.stored 1), c) ∧
      c.data.intakeEvents.rows = [⟨sampleEvent, .pending, 0⟩] ∧
      c.data.quarantinedEvents = Table.empty ∧
      receive sampleReceivedAt sampleTopic changedPayload false c = (.ok .identityConflict, c) := by
    simp only [receive, parse_sample, parse_changed]
    exact ⟨_, rfl, rfl, rfl, rfl⟩
  obtain ⟨c, hstored, hrows, hquarantine, hconflict⟩ := hfirst
  -- The queue holds the first payload alone and the quarantine is empty.
  have hdropped : ¬RecordedAs c.data (identity changedEvent) changedPayload := by
    rintro (⟨r, hr, -, hbytes⟩ | ⟨q, hq, -⟩)
    · rw [Table.mem_def, hrows, List.mem_singleton] at hr
      subst hr
      exact absurd hbytes (by decide)
    · rw [hquarantine] at hq
      exact Table.not_mem_empty q hq
  exact ⟨c, c, hstored, hconflict, rfl, parse_changed, hdropped, fun h => hdropped h.recorded⟩

end EquipmentMonitoring.Intake
