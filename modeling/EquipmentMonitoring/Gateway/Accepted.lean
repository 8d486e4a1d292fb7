import EquipmentMonitoring.Foundations.Except
import EquipmentMonitoring.Gateway.Event
import Mathlib.Data.List.Perm.Subperm

/-!
# What an Accepted Payload Holds

`parse` is inverted once: every later argument about an accepted message starts from the syntax
tree of its payload and the facts collected in `AcceptedFields`.

## Key Results

- `parseStrict_eq_ok_iff`: strict parsing returns the value of a tree with unique keys
- `parse_eq_ok`: the tree and the fields behind an event
- `exists_source`: the same as a structure
- `AcceptedFields.names_perm`: the members are the ten fields, in some order
-/

namespace EquipmentMonitoring.Telemetry

open EquipmentMonitoring.Json EquipmentMonitoring.Nlohmann

/-! ## Strict Parsing -/

theorem parseStrict_eq_ok_iff [Nlohmann.Library] {payload : Bytes} {v : Value} :
    parseStrict payload = .ok v ↔
      ∃ doc, Nlohmann.parse payload = some doc ∧ Within 4 (doc.value.events 0) ∧
        doc.value.uniqueKeys = true ∧ doc.value.value = v := by
  simp only [parseStrict, except_bind_eq_ok, except_mapError_eq_ok]
  constructor
  · rintro ⟨keys, hkeys, h⟩
    split at h
    · next doc hdoc =>
      have hreports : (Nlohmann.read payload).reports = doc.value.events 0 := read_reports hdoc
      rw [hreports] at hkeys
      obtain ⟨hwithin, hunique⟩ := track_ok_iff.mp ⟨keys, hkeys⟩
      exact ⟨doc, hdoc, hwithin, hunique, except_pure_eq_ok.mp h⟩
    · simp at h
  · rintro ⟨doc, hdoc, hwithin, hunique, rfl⟩
    obtain ⟨keys, hkeys⟩ := track_ok_iff.mpr ⟨hwithin, hunique⟩
    have hreports : (Nlohmann.read payload).reports = doc.value.events 0 := read_reports hdoc
    have hresult : (Nlohmann.read payload).result = some doc := hdoc
    exact ⟨keys, by rw [hreports]; exact hkeys, by rw [hresult]; rfl⟩

/-! ## Members -/

theorem get?_eq_some_mem {v x : Value} {key : Bytes} (h : v.get? key = some x) :
    (key, x) ∈ v.members := by
  simp only [Value.get?, Option.map_eq_some_iff] at h
  obtain ⟨⟨k, y⟩, hfind, rfl⟩ := h
  have hk := List.find?_some hfind
  have hmem := List.mem_of_find?_eq_some hfind
  simp only [beq_iff_eq] at hk
  rwa [← hk]

theorem contains_iff {v : Value} {key : Bytes} :
    contains v key = true ↔ key ∈ v.members.map Prod.fst := by
  simp [contains, Value.get?, List.find?_isSome]

@[simp] theorem at_eq_ok {v x : Value} {key : Bytes} : at_ v key = .ok x ↔ v.get? key = some x := by
  unfold at_
  cases v with
  | object ms => cases h : (Value.object ms).get? key <;> simp
  | _ => simp [Value.get?, Value.members]

theorem exactKeys_eq_ok {object : Value} {expected : List Bytes} {reason : String} {u : Unit} :
    exactKeys object expected reason = .ok u ↔
      isObject object = true ∧ object.members.length = expected.length ∧
        ∀ key ∈ expected, key ∈ object.members.map Prod.fst := by
  simp only [exactKeys, except_bind_eq_ok, require_eq_ok, Bool.and_eq_true, beq_iff_eq, size,
    forM_eq_ok, contains_iff]
  constructor
  · rintro ⟨_, ⟨hobject, hsize⟩, hkeys⟩
    exact ⟨hobject, hsize, hkeys⟩
  · rintro ⟨hobject, hsize, hkeys⟩
    exact ⟨(), ⟨hobject, hsize⟩, hkeys⟩

/-- An object with exactly the expected keys has them as its member names, in some order. -/
theorem names_perm {names expected : List Bytes} (hnodup : expected.Nodup)
    (hlength : names.length = expected.length) (hkeys : ∀ key ∈ expected, key ∈ names) :
    names.Perm expected :=
  ((List.subperm_of_subset hnodup hkeys).perm_of_length_le hlength.le).symm

/-! ## Scalars -/

theorem identifier_eq_ok {v : Value} {reason : String} {text : Bytes} :
    identifier v reason = .ok text ↔
      v = .string text ∧ text ≠ [] ∧ text.length ≤ 128 ∧ 0 ∉ text := by
  cases v with
  | string t =>
    simp only [identifier, getText, except_bind_eq_ok, require_eq_ok, except_pure_eq_ok,
      Except.ok.injEq, Bool.and_eq_true, decide_eq_true_eq, Value.string.injEq,
      Bool.not_eq_true', List.isEmpty_eq_false_iff]
    constructor
    · rintro ⟨_, -, t, rfl, _, ⟨⟨hne, hlength⟩, hnul⟩, rfl⟩
      exact ⟨rfl, hne, hlength, by simpa using hnul⟩
    · rintro ⟨rfl, hne, hlength, hnul⟩
      exact ⟨(), trivial, t, rfl, (), ⟨⟨hne, hlength⟩, by simpa using hnul⟩, rfl⟩
  | _ => simp [identifier, except_bind_eq_ok]

/-- The integer stored is the one spelled. -/
theorem toInt?_numberKind {n : Number} {i : Int} (h : (numberKind n).toInt? = some i) :
    n.isIntegral = true ∧ n.intValue = i := by
  unfold numberKind at h
  split at h
  · next hintegral =>
    refine ⟨hintegral, ?_⟩
    split at h
    · split at h
      · simpa [NumberKind.toInt?] using h
      · simp [NumberKind.toInt?] at h
    · next hneg =>
      split at h
      · simpa [NumberKind.toInt?, Number.intValue, hneg] using h
      · simp [NumberKind.toInt?] at h
  · simp [NumberKind.toInt?] at h

/-- An integer of 63 bits is stored as one. -/
theorem numberKind_toInt? {n : Number} (hintegral : n.isIntegral = true)
    (hrange : 0 ≤ n.intValue ∧ n.intValue ≤ 2 ^ 63 - 1) :
    (numberKind n).toInt? = some n.intValue := by
  unfold numberKind
  rw [if_pos hintegral]
  split
  · rw [if_pos (by omega)]
    rfl
  · next hneg =>
    have hint : n.intValue = n.int.value := by simp [Number.intValue, hneg]
    rw [if_pos (by omega), hint]
    rfl

/-- A counter is an integer literal in range, however it is stored. -/
theorem counter_eq_ok {v : Value} {reason : String} {i : Int} :
    counter v reason = .ok i ↔
      ∃ n, v = .number n ∧ n.isIntegral = true ∧ n.intValue = i ∧ 0 ≤ i ∧ i ≤ 2 ^ 63 - 1 := by
  cases v with
  | number n =>
    -- A token that keeps a sign is never above zero.
    have hbounds (h : n.isIntegral = true) (hneg : n.negative = true) : n.intValue ≤ 0 := by
      simp [Number.intValue, hneg]
    constructor
    · intro h
      refine ⟨n, rfl, ?_⟩
      cases hkind : numberKind n with
      | unsigned k =>
        obtain ⟨hintegral, hint⟩ := toInt?_numberKind (i := k) (by rw [hkind]; rfl)
        simp only [counter, hkind, except_bind_eq_ok, require_eq_ok, decide_eq_true_eq,
          except_pure_eq_ok] at h
        obtain ⟨_, hle, rfl⟩ := h
        exact ⟨hintegral, hint, by omega⟩
      | integer j =>
        obtain ⟨hintegral, hint⟩ := toInt?_numberKind (i := j) (by rw [hkind]; rfl)
        have hle : j ≤ 0 := by
          rw [← hint]
          refine hbounds hintegral ?_
          by_contra hneg
          simp only [numberKind, if_pos hintegral, if_neg hneg] at hkind
          split at hkind <;> simp at hkind
        simp only [counter, hkind, except_bind_eq_ok, require_eq_ok, decide_eq_true_eq,
          except_pure_eq_ok] at h
        obtain ⟨_, hnonneg, rfl⟩ := h
        exact ⟨hintegral, hint, by omega⟩
      | float => simp [counter, hkind] at h
    · rintro ⟨_, ⟨⟩, hintegral, rfl, hrange⟩
      -- an integer in this range has an exact kind, so nothing is lost on the way to a double
      have hkind := numberKind_toInt? hintegral hrange
      cases hk : numberKind n with
      | unsigned k =>
        rw [hk] at hkind
        have hint : (k : Int) = n.intValue := Option.some.inj hkind
        simp only [counter, hk, except_bind_eq_ok, require_eq_ok, decide_eq_true_eq,
          except_pure_eq_ok]
        exact ⟨(), by omega, hint⟩
      | integer j =>
        rw [hk] at hkind
        have hint : j = n.intValue := Option.some.inj hkind
        simp only [counter, hk, except_bind_eq_ok, require_eq_ok, decide_eq_true_eq,
          except_pure_eq_ok]
        exact ⟨(), by omega, hint⟩
      | float => simp [hk, NumberKind.toInt?] at hkind
  | _ => simp [counter]

/-! ## Events -/

/-- What `parse` has checked of the decoded payload. -/
structure AcceptedFields (data : Value) (event : Event) : Prop where
  keys : exactKeys data eventFields "invalid_event_fields" = .ok ()
  schemaVersion : ∃ v, data.get? (ascii "schema_version") = some v ∧ isOne v = true
  deviceId : ∃ v, data.get? (ascii "device_id") = some v ∧
    identifier v "invalid_device_id" = .ok event.deviceId
  bootId : ∃ v, data.get? (ascii "boot_id") = some v ∧
    identifier v "invalid_boot_id" = .ok event.bootId
  sequenceNumber : ∃ v, data.get? (ascii "sequence_number") = some v ∧
    counter v "invalid_sequence_number" = .ok event.sequenceNumber
  deviceUptime : ∃ v n, data.get? (ascii "device_uptime_ms") = some v ∧
    counter v "invalid_device_uptime_ms" = .ok n
  measuredAt : ∃ v, data.get? (ascii "measured_at") = some v ∧ validMeasuredAt v = .ok true
  metric : ∃ v, data.get? (ascii "metric") = some v ∧ isText v (ascii "temperature") = true
  unit : ∃ v, data.get? (ascii "unit") = some v ∧ isText v (ascii "celsius") = true
  value : ∃ v, data.get? (ascii "value") = some v ∧ isFiniteNumber v = true
  quality : ∃ q, data.get? (ascii "quality") = some q ∧
    exactKeys q qualityFields "invalid_quality" = .ok () ∧
    (∃ v, q.get? (ascii "reading") = some v ∧ isText v (ascii "valid") = true) ∧
    ∃ v, q.get? (ascii "clock") = some v ∧ clockQualities.any (isText v) = true

/-- The event of an accepted message, its payload's tree and the fields checked. -/
theorem parse_eq_ok [Nlohmann.Library] {topic payload receivedAt : Bytes} {event : Event}
    (h : parse topic payload receivedAt = .ok event) :
    event.mqttPayload = payload ∧ event.gatewayReceivedAt = receivedAt ∧
      topicDeviceId topic = .ok event.deviceId ∧ payload.length ≤ maxPayloadBytes ∧
      ∃ doc, Nlohmann.parse payload = some doc ∧ doc.value.uniqueKeys = true ∧
        AcceptedFields doc.value.value event := by
  simp only [parse, except_bind_eq_ok, require_eq_ok, except_pure_eq_ok, at_eq_ok] at h
  obtain ⟨_, hsize, device, htopic, data, hdata, _, -, _, hkeys, vs, hvs, _, hone, vd, hvd, dev,
    hdev, _, hdevice, vb, hvb, boot, hboot, vn, hvn, n, hn, vu, hvu, up, hup, vm, hvm, _, hm, _,
    rfl, vt, hvt, _, ht, vc, hvc, _, hc, vx, hvx, _, hx, q, hq, _, hqkeys, vr, hvr, _, hr, vk, hvk,
    _, hk, rfl⟩ := h
  obtain ⟨doc, hdoc, -, hunique, rfl⟩ := parseStrict_eq_ok_iff.mp hdata
  -- the device of the payload is the one of the topic
  obtain rfl : dev = device := by simpa using hdevice
  refine ⟨rfl, rfl, htopic, by simpa using hsize, doc, hdoc, hunique, ?_⟩
  exact {
    keys := hkeys
    schemaVersion := ⟨vs, hvs, hone⟩
    deviceId := ⟨vd, hvd, hdev⟩
    bootId := ⟨vb, hvb, hboot⟩
    sequenceNumber := ⟨vn, hvn, hn⟩
    deviceUptime := ⟨vu, up, hvu, hup⟩
    measuredAt := ⟨vm, hvm, hm⟩
    metric := ⟨vt, hvt, ht⟩
    unit := ⟨vc, hvc, hc⟩
    value := ⟨vx, hvx, hx⟩
    quality := ⟨q, hq, hqkeys, ⟨vr, hvr, hr⟩, vk, hvk, hk⟩ }

/-- A payload whose fields all pass is accepted. -/
theorem parse_of_fields [Nlohmann.Library] {topic payload receivedAt : Bytes} {event : Event}
    {doc : Element Tree} (hpayload : event.mqttPayload = payload)
    (hreceived : event.gatewayReceivedAt = receivedAt) (hsize : payload.length ≤ maxPayloadBytes)
    (htopic : topicDeviceId topic = .ok event.deviceId) (hdoc : Nlohmann.parse payload = some doc)
    (hwithin : Within 4 (doc.value.events 0)) (hunique : doc.value.uniqueKeys = true)
    (hreceipt : contains doc.value.value (ascii "gateway_received_at") = false)
    (hfields : AcceptedFields doc.value.value event) :
    parse topic payload receivedAt = .ok event := by
  obtain ⟨hkeys, ⟨vs, hvs, hone⟩, ⟨vd, hvd, hdev⟩, ⟨vb, hvb, hboot⟩, ⟨vn, hvn, hn⟩,
    ⟨vu, up, hvu, hup⟩, ⟨vm, hvm, hm⟩, ⟨vt, hvt, ht⟩, ⟨vc, hvc, hc⟩, ⟨vx, hvx, hx⟩,
    ⟨q, hq, hqkeys, ⟨vr, hvr, hr⟩, vk, hvk, hk⟩⟩ := hfields
  -- Strict parsing needs the text, the depth and distinct names; the fields do the rest.
  have hdata : parseStrict payload = .ok doc.value.value :=
    parseStrict_eq_ok_iff.mpr ⟨doc, hdoc, hwithin, hunique, rfl⟩
  simp only [parse, except_bind_eq_ok, require_eq_ok, except_pure_eq_ok, at_eq_ok]
  refine ⟨(), by simpa using hsize, _, htopic, _, hdata, (), by simp [hreceipt], (), hkeys, vs, hvs,
    (), hone, vd, hvd, _, hdev, (), by simp, vb, hvb, _, hboot, vn, hvn, _, hn, vu, hvu, up, hup, vm,
    hvm, true, hm, (), rfl, vt, hvt, (), ht, vc, hvc, (), hc, vx, hvx, (), hx, q, hq, (), hqkeys, vr,
    hvr, (), hr, vk, hvk, (), hk, ?_⟩
  cases event
  simp_all

theorem AcceptedFields.names_perm {data : Value} {event : Event} (h : AcceptedFields data event) :
    (data.members.map Prod.fst).Perm eventFields := by
  obtain ⟨-, hlength, hkeys⟩ := exactKeys_eq_ok.mp h.keys
  exact Telemetry.names_perm (by decide) (by simpa using hlength) hkeys

/-! ## The Source of an Event -/

/-- The syntax tree of an accepted payload, with the facts `parse` has established about it. -/
structure EventSource (event : Event) where
  pre : Space
  first : Member Tree
  rest : List (Member Tree)
  post : Space
  text : renderElement ⟨pre, .object first rest, post⟩ = skipBom event.mqttPayload
  accepted : (Tree.object first rest).accepted dialect = true
  unique : (Tree.object first rest).uniqueKeys = true
  fields : AcceptedFields (Tree.object first rest).value event

/-- Every accepted message has a source. -/
theorem exists_source [Nlohmann.Library] {topic payload receivedAt : Bytes} {event : Event}
    (h : parse topic payload receivedAt = .ok event) : Nonempty (EventSource event) := by
  obtain ⟨rfl, -, -, -, ⟨pre, v, post⟩, hdoc, hunique, hfields⟩ := parse_eq_ok h
  obtain ⟨htext, haccepted⟩ := Nlohmann.parse_eq_some_iff.mp hdoc
  have hlength := hfields.names_perm.length_eq
  obtain ⟨hobject, -⟩ := exactKeys_eq_ok.mp hfields.keys
  cases v with
  | object first rest => exact ⟨⟨pre, first, rest, post, htext, haccepted, hunique, hfields⟩⟩
  | emptyObject inner => simp [Tree.value, Value.members, eventFields] at hlength
  | _ => simp [Tree.value, isObject] at hobject

namespace EventSource

variable {event : Event} (src : EventSource event)

def members : List (Member Tree) := src.first :: src.rest

theorem value_members :
    (Tree.object src.first src.rest).value.members =
      src.members.map fun m => (m.name, m.value.value) := by
  simp [Tree.value, Value.members, members, memberValues_eq_map, Member.name]

theorem names_perm : (src.members.map Member.name).Perm eventFields := by
  have h := src.fields.names_perm
  rwa [src.value_members, List.map_map] at h

theorem name_mem {m : Member Tree} (hm : m ∈ src.members) : m.name ∈ eventFields :=
  src.names_perm.mem_iff.mp (List.mem_map_of_mem hm)

theorem names_nodup : (src.members.map Member.name).Nodup :=
  src.names_perm.nodup_iff.mpr (by decide)

theorem keys_accepted : ∀ m ∈ src.members, dialect.string m.key = true := by
  have h : membersAccepted dialect src.members = true := src.accepted
  rw [membersAccepted_eq_all, List.all_eq_true] at h
  exact fun m hm => (Bool.and_eq_true _ _ ▸ h m hm).1

theorem values_accepted : ∀ m ∈ src.members, m.value.accepted dialect = true := by
  have h : membersAccepted dialect src.members = true := src.accepted
  rw [membersAccepted_eq_all, List.all_eq_true] at h
  exact fun m hm => (Bool.and_eq_true _ _ ▸ h m hm).2

theorem values_unique : ∀ m ∈ src.members, m.value.uniqueKeys = true := by
  have h := src.unique
  rw [Tree.uniqueKeys_object, Bool.and_eq_true, membersUnique_eq_all, List.all_eq_true] at h
  exact h.2

end EventSource

/-! ## A Message -/

def sampleTopic : Bytes := ascii "equipment/d-1/telemetry"

def samplePayload : Bytes :=
  ascii "\x7b\"device_id\":\"d-1\" , \"boot_id\":\"b\x7d],\\\"\",\"schema_version\":1," ++
    ascii "\"sequence_number\":7,\"measured_at\":null,\"device_uptime_ms\":1," ++
    ascii "\"metric\":\"temperature\",\"value\":31.40000000000000000001," ++
    ascii "\"unit\":\"celsius\",\"quality\":\x7b\"reading\":\"valid\",\"clock\":\"unknown\"\x7d\x7d"

def sampleReceivedAt : Bytes := ascii "2026-01-01T00:00:00.000Z"

def sampleEvent : Event :=
  ⟨ascii "d-1", ascii "b\x7d],\"", 7, samplePayload, sampleReceivedAt⟩

theorem parse_sample : parse sampleTopic samplePayload sampleReceivedAt = .ok sampleEvent := by
  decide +kernel

end EquipmentMonitoring.Telemetry
