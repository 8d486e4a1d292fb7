import EquipmentMonitoring.Backend.Validation
import EquipmentMonitoring.Gateway.Forwarding

/-!
# The Backend Reads the Gateway's Batches

The items of a validated batch are traced back to the queue rows it was built from: item by item,
the backend has validated the payload of the row at the same place, without its schema version and
with the gateway's receipt time.

## Key Results

- `forwarded_get?`: what the backend finds under a key is what the gateway found there
- `items_of_claimed`: each item of a batch comes from the row at its place
-/

namespace EquipmentMonitoring.Exchange

open EquipmentMonitoring.Json EquipmentMonitoring.Telemetry EquipmentMonitoring.Backend
open EquipmentMonitoring.Forwarder EquipmentMonitoring.Store

/-! ## Forwarded Members -/

/-- A device's event as the backend is asked to accept it: without its schema version, and with the
gateway's receipt time. -/
def backendEvent (e : Value) (receivedAt : Bytes) : Value :=
  .object (e.members.filter (fun p => decide (p.1 ≠ schemaKey)) ++
    [(receiptKey, .string receivedAt)])

/-- Under any other key than those two nothing has changed. -/
theorem get?_backendEvent (e : Value) (receivedAt : Bytes) {key : Bytes} (hschema : key ≠ schemaKey)
    (hreceipt : key ≠ receiptKey) : (backendEvent e receivedAt).get? key = e.get? key := by
  have hpred : (fun p : Bytes × Value => decide (decide (p.1 ≠ schemaKey) = true ∧
      (p.1 == key) = true)) = fun p => p.1 == key := by
    funext p
    by_cases h : p.1 = key
    · simp [h, hschema]
    · simp [h]
  rw [backendEvent]
  simp only [Value.get?, Value.members, List.find?_append, List.find?_filter, hpred]
  simp [hreceipt.symm]

theorem get?_backendEvent_receipt {e : Value} (receivedAt : Bytes)
    (h : receiptKey ∉ e.members.map Prod.fst) :
    (backendEvent e receivedAt).get? receiptKey = some (.string receivedAt) := by
  have hnone : (e.members.filter (fun p => decide (p.1 ≠ schemaKey))).find?
      (fun p => p.1 == receiptKey) = none := by
    rw [List.find?_eq_none]
    intro p hp
    have hname : p.1 ≠ receiptKey := fun heq =>
      h (heq ▸ List.mem_map_of_mem (List.mem_of_mem_filter hp))
    simpa using hname
  rw [backendEvent, Value.get?, Value.members, List.find?_append, hnone]
  simp

section Source

variable {event : Event} (src : EventSource event)

theorem value_source : (Tree.object src.first src.rest).value =
    .object (src.members.map fun m => (m.name, m.value.value)) := by
  simp [Tree.value, EventSource.members, memberValues_eq_map, Member.name]

theorem value_forwarded [Nlohmann.Library] (receivedAt : Bytes) :
    (forwardedTree src.members receivedAt).value =
      backendEvent (Tree.object src.first src.rest).value receivedAt := by
  have hreceipt : (receiptMember receivedAt).value.value = .string receivedAt :=
    congrArg Value.string (Nlohmann.Library.token_decode receivedAt)
  rw [forwardedTree, Tree.value_ofMembers, forwardedMembers, List.map_append, List.map_singleton,
    name_receiptMember, hreceipt, kept, List.map_map, value_source, backendEvent, Value.members,
    List.filter_map]
  rfl

/-- What the backend finds under a key is what the gateway found there. -/
theorem forwarded_get? [Nlohmann.Library] (receivedAt : Bytes) {key : Bytes}
    (hschema : key ≠ schemaKey) (hreceipt : key ≠ receiptKey) :
    (forwardedTree src.members receivedAt).value.get? key =
      (Tree.object src.first src.rest).value.get? key := by
  rw [value_forwarded, get?_backendEvent _ _ hschema hreceipt]

end Source

/-! ## Claimed Rows -/

/-- The payload is what the gateway forwards of the row. -/
def Carries [Nlohmann.Library] (row : QueuedEvent) (payload : Value) : Prop :=
  ∃ src : EventSource row.event,
    payload = (forwardedTree src.members row.event.gatewayReceivedAt).value

/-- The row's event was accepted by `telemetry::parse`. -/
def Accepted [Nlohmann.Library] (row : QueuedEvent) : Prop :=
  ∃ topic payload receivedAt, Telemetry.parse topic payload receivedAt = .ok row.event

/-- Texts returned for accepted rows are the renderings of what they carry. -/
theorem exists_carried [Nlohmann.Library] {claimed : List QueuedEvent} {outs : List Bytes}
    (haccepted : ∀ row ∈ claimed, Accepted row)
    (h : List.Forall₂ (fun row out => backendEventJson row.event = .ok out) claimed outs) :
    ∃ events : List Tree,
      List.Forall₂ (fun row t => backendEventJson row.event = .ok (Tree.render t)) claimed events ∧
        List.Forall₂ Carries claimed (events.map Tree.value) := by
  induction h with
  | nil => exact ⟨[], .nil, .nil⟩
  | @cons row out rows outs hrow _ ih =>
    obtain ⟨events, hevents, hcarries⟩ := ih fun x hx => haccepted x (List.mem_cons_of_mem _ hx)
    obtain ⟨_, _, _, hparse⟩ := haccepted row (List.mem_cons_self ..)
    obtain ⟨src⟩ := exists_source hparse
    obtain ⟨-, -, rfl⟩ := backendEventJson_ok src hrow
    exact ⟨_ :: events, .cons hrow hevents, .cons ⟨src, rfl⟩ hcarries⟩

/-- Each item of a validated batch comes from the row at its place. -/
theorem items_of_claimed [Nlohmann.Library] {python : Interpreter} {claimed : List QueuedEvent}
    {body : Bytes} {batch : ValidatedTelemetryBatch} (haccepted : ∀ row ∈ claimed, Accepted row)
    (hbody : batchJson claimed = .ok body) (hbatch : parseTelemetryBatch python body = .ok batch) :
    ∃ payloads, List.Forall₂ Carries claimed payloads ∧
      batch.items = payloads.map validateTelemetryItem := by
  have houts := hbody
  simp only [batchJson, except_bind_eq_ok, mapM_eq_ok] at houts
  obtain ⟨outs, houts, -⟩ := houts
  obtain ⟨events, hevents, hcarries⟩ := exists_carried haccepted houts
  obtain rfl := Except.ok.inj ((batchJson_eq hevents).symm.trans hbody)
  obtain ⟨payload, items, hloads, hget, hitems⟩ := parseTelemetryBatch_eq_ok hbatch
  -- the body renders one tree only, so that is the tree the backend has read
  have htight : (batchTree events).render = renderElement (tight (batchTree events)) := by
    simp [renderElement, tight, Space.none]
  rw [htight] at hloads
  obtain ⟨-, -, rfl⟩ := loads_render hloads
  rw [tight, batchTree_value] at hget
  have hkey : (schemaKey == ascii "events") = false := by decide
  simp only [Value.get?, Value.members, List.find?_cons, hkey, beq_self_eq_true, Option.map_some,
    Option.some.injEq, Value.array.injEq] at hget
  subst hget
  exact ⟨_, hcarries, hitems⟩

/-! ## Readable Trees -/

/-- A tree the gateway's parser takes, whose containers nest at most so deep. -/
structure Readable (height : Nat) (t : Tree) : Prop where
  accepted : t.accepted Nlohmann.dialect = true
  unique : t.uniqueKeys = true
  height : t.height ≤ height

theorem Readable.mono {h h' : Nat} {t : Tree} (ht : Readable h t) (hle : h ≤ h') : Readable h' t :=
  ⟨ht.accepted, ht.unique, ht.height.trans hle⟩

end EquipmentMonitoring.Exchange
