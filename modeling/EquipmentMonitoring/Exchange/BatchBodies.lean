import EquipmentMonitoring.Exchange.Contract
import EquipmentMonitoring.Exchange.Loading

/-!
# Which Batches Reach the Backend's Items

A batch holds up to 500 accepted events, and one event that cannot be sent or loaded keeps all of
them back. Two kinds of payload do so: one that begins with a byte order mark, and one whose value
is a number that `Decimal` cannot hold.

## Key Results

- `loadable_values`: only the value can be a number that does not load
- `batchTree_loadable`: a batch loads when its events do
- `batch_reaches_items_iff`: the batches that are sent and whose envelope is valid
-/

namespace EquipmentMonitoring.Exchange

open EquipmentMonitoring.Json EquipmentMonitoring.Nlohmann
open EquipmentMonitoring.Forwarder EquipmentMonitoring.Backend EquipmentMonitoring.Store
open EquipmentMonitoring.Telemetry (Event EventSource AcceptedFields exactKeys_eq_ok)

/-! ## Digits -/

/-- A number without superfluous zeros has no more digits than a power of ten above it. -/
theorem length_int_le {n : Number} {k : Nat} (hk : 0 < k) (h : n.int.value < 10 ^ k) :
    n.int.text.length ≤ k := by
  obtain ⟨b, rest, htext⟩ := List.exists_cons_of_ne_nil n.int.nonempty
  by_cases hzero : b = 0x30
  · have hone : n.int.text = [0x30] := n.canonical (by rw [htext, hzero]; rfl)
    rw [hone]
    exact hk
  · -- the first digit counts at least one of its power of ten
    have hdigits := n.int.digits
    rw [htext, List.all_cons, Bool.and_eq_true] at hdigits
    have hfirst : 1 ≤ b.toNat - 0x30 := by
      have hb := hdigits.1
      simp only [isDigit, Bool.and_eq_true, decide_eq_true_eq, UInt8.le_iff_toNat_le] at hb
      have hlow : 0x30 ≤ b.toNat := hb.1
      have hne : b.toNat ≠ 0x30 := fun heq => hzero (UInt8.toNat_inj.mp heq)
      omega
    have hle : 10 ^ rest.length ≤ n.int.value := by
      rw [Digits.value, htext, digitsValue_cons]
      exact (Nat.le_mul_of_pos_left _ hfirst).trans (Nat.le_add_right _ _)
    have hlt : rest.length < k := (Nat.pow_lt_pow_iff_right (by decide)).mp (hle.trans_lt h)
    rw [htext, List.length_cons]
    omega

/-- An integer that is finite as a double has few digits. -/
theorem loads_int {n : Number} (hintegral : n.isIntegral = true) (hfinite : finiteDouble n = true) :
    Backend.dialect.number n = true := by
  have hbound : doubleBound < 10 ^ 309 := by decide +kernel
  have hvalue : (n.int.value : ℚ) < doubleBound := by
    have hfinite := (finiteDouble_iff n).mp hfinite
    rwa [n.coefficient_of_integral hintegral, n.exponent_of_integral hintegral, zpow_zero,
      mul_one] at hfinite
  have hlength : n.int.text.length ≤ 309 :=
    length_int_le (by decide) ((by exact_mod_cast hvalue : n.int.value < doubleBound).trans hbound)
  simp only [Backend.dialect, hintegral, if_true, decide_eq_true_eq]
  exact hlength.trans (by decide)

/-! ## The Values of a Payload -/

/-- A value the backend loads, whose containers nest at most so deep. -/
structure Loads (height : Nat) (t : Tree) : Prop where
  accepted : t.accepted Backend.dialect = true
  height : t.height ≤ height

theorem Loads.mono {h h' : Nat} {t : Tree} (ht : Loads h t) (hle : h ≤ h') : Loads h' t :=
  ⟨ht.accepted, ht.height.trans hle⟩

theorem loads_string {t : Tree} {text : Bytes} (h : t.value = .string text) : Loads 0 t := by
  cases t with
  | string l => exact ⟨rfl, Nat.le_refl 0⟩
  | _ => simp [Tree.value] at h

theorem loads_null {t : Tree} (h : t.value = .null) : Loads 0 t := by
  cases t with
  | null => exact ⟨rfl, Nat.le_refl 0⟩
  | _ => simp [Tree.value] at h

theorem loads_number {t : Tree} {n : Number} (h : t.value = .number n)
    (hn : Backend.dialect.number n = true) : Loads 0 t := by
  cases t with
  | number m =>
    obtain rfl : m = n := Value.number.inj h
    exact ⟨hn, Nat.le_refl 0⟩
  | _ => simp [Tree.value] at h

theorem loads_integer {t : Tree} {n : Number} (h : t.value = .number n)
    (hintegral : n.isIntegral = true) (hlow : 0 ≤ n.intValue) (hhigh : n.intValue ≤ 2 ^ 63 - 1) :
    Loads 0 t :=
  loads_number h (loads_int hintegral (finiteDouble_of_int hintegral hlow hhigh))

theorem loads_counter {t : Tree} {reason : String} {i : Int}
    (h : Telemetry.counter t.value reason = .ok i) : Loads 0 t := by
  obtain ⟨n, hn, hintegral, rfl, hlow, hhigh⟩ := Telemetry.counter_eq_ok.mp h
  exact loads_integer hn hintegral hlow hhigh

theorem loads_identifier {t : Tree} {reason : String} {text : Bytes}
    (h : Telemetry.identifier t.value reason = .ok text) : Loads 0 t :=
  loads_string (Telemetry.identifier_eq_ok.mp h).1

theorem loads_text {t : Tree} {text : Bytes} (h : isText t.value text = true) : Loads 0 t := by
  cases hv : t.value with
  | string s => exact loads_string hv
  | _ => simp [hv, isText] at h

section Payload

variable {event : Event} (src : EventSource event)

/-- The value literal of the payload loads. -/
def ValueLoads : Prop :=
  ∀ n, (Tree.object src.first src.rest).value.get? (ascii "value") = some (.number n) →
    n.isIntegral = true ∨ exactDecimal n = true

theorem loads_quality {t : Tree} (hunique : t.uniqueKeys = true)
    (hkeys : Telemetry.exactKeys t.value Telemetry.qualityFields "invalid_quality" = .ok ())
    {reading clock : Value} (hreading : t.value.get? (ascii "reading") = some reading)
    (hreadingText : isText reading (ascii "valid") = true)
    (hclock : t.value.get? (ascii "clock") = some clock)
    (hclockText : Telemetry.clockQualities.any (isText clock) = true) : Loads 1 t := by
  obtain ⟨first, rest, -, rfl, -⟩ := exists_member hreading
  obtain ⟨-, hlength, hexpected⟩ := exactKeys_eq_ok.mp hkeys
  -- Two names that are all there are the only ones.
  have hperm : ((Tree.object first rest).value.members.map Prod.fst).Perm Telemetry.qualityFields :=
    Telemetry.names_perm (by decide) (by simpa using hlength) hexpected
  have hvalue (m : Member Tree) (hm : m ∈ first :: rest) : Loads 0 m.value := by
    have hget := get?_member hunique hm
    have hname : m.name ∈ Telemetry.qualityFields := hperm.mem_iff.mp
      (List.mem_map.mpr ⟨_, Telemetry.get?_eq_some_mem hget, rfl⟩)
    rcases List.mem_pair.mp hname with heq | heq <;> rw [heq] at hget
    · obtain rfl := Option.some.inj (hreading.symm.trans hget)
      exact loads_text hreadingText
    · obtain rfl := Option.some.inj (hclock.symm.trans hget)
      obtain ⟨text, -, htext⟩ := List.any_eq_true.mp hclockText
      exact loads_text htext
  have hheight : (Tree.ofMembers (first :: rest)).height ≤ 0 + 1 :=
    Tree.height_ofMembers fun m hm => (hvalue m hm).height
  refine ⟨?_, hheight⟩
  rw [Tree.accepted_object, List.all_eq_true]
  exact fun m hm => (Bool.and_eq_true _ _).mpr ⟨rfl, (hvalue m hm).accepted⟩

/-- Only the value can be a number that does not load. -/
theorem loadable_values (hload : ValueLoads src) : ∀ m ∈ src.members, Loads 1 m.value := by
  intro m hm
  have hget : (Tree.object src.first src.rest).value.get? m.name = some m.value.value :=
    get?_member src.unique hm
  obtain ⟨vs, hvs, hone⟩ := src.fields.schemaVersion
  obtain ⟨vd, hvd, hd⟩ := src.fields.deviceId
  obtain ⟨vb, hvb, hb⟩ := src.fields.bootId
  obtain ⟨vn, hvn, hn⟩ := src.fields.sequenceNumber
  obtain ⟨vu, u, hvu, hu⟩ := src.fields.deviceUptime
  obtain ⟨vm, hvm, hmeasured⟩ := src.fields.measuredAt
  obtain ⟨vt, hvt, ht⟩ := src.fields.metric
  obtain ⟨vc, hvc, hc⟩ := src.fields.unit
  obtain ⟨vx, hvx, hx⟩ := src.fields.value
  obtain ⟨q, hq, hqkeys, ⟨vr, hvr, hr⟩, vk, hvk, hk⟩ := src.fields.quality
  have hfound {key : Bytes} {v : Value} (hname : m.name = key)
      (hv : (Tree.object src.first src.rest).value.get? key = some v) : m.value.value = v :=
    Option.some.inj ((hname ▸ hget).symm.trans hv)
  have hname := src.name_mem hm
  simp only [Telemetry.eventFields, List.mem_cons, List.not_mem_nil, or_false] at hname
  rcases hname with hname | hname | hname | hname | hname | hname | hname | hname | hname | hname
  · -- the schema version is the integer one
    have hv := hfound hname hvs
    cases vs with
    | number n =>
      obtain ⟨hintegral, hint⟩ := Telemetry.toInt?_numberKind (eq_of_beq hone)
      exact (loads_integer hv hintegral (by omega) (by omega)).mono (Nat.zero_le 1)
    | _ => simp [Telemetry.isOne] at hone
  · exact (loads_identifier (hfound hname hvd ▸ hd)).mono (Nat.zero_le 1)
  · exact (loads_identifier (hfound hname hvb ▸ hb)).mono (Nat.zero_le 1)
  · exact (loads_counter (hfound hname hvn ▸ hn)).mono (Nat.zero_le 1)
  · have hv := hfound hname hvm
    cases vm with
    | null => exact (loads_null hv).mono (Nat.zero_le 1)
    | string text => exact (loads_string hv).mono (Nat.zero_le 1)
    | _ => simp [Telemetry.validMeasuredAt] at hmeasured
  · exact (loads_counter (hfound hname hvu ▸ hu)).mono (Nat.zero_le 1)
  · exact (loads_text (hfound hname hvt ▸ ht)).mono (Nat.zero_le 1)
  · have hv := hfound hname hvx
    cases vx with
    | number n =>
      refine (loads_number hv ?_).mono (Nat.zero_le 1)
      by_cases hintegral : n.isIntegral = true
      · exact loads_int hintegral hx
      · have hexact := (hload n hvx).resolve_left hintegral
        simpa only [Backend.dialect, if_neg hintegral] using hexact
    | _ => simp [Telemetry.isFiniteNumber] at hx
  · exact (loads_text (hfound hname hvc ▸ hc)).mono (Nat.zero_le 1)
  · rw [← hfound hname hq] at hqkeys hvr hvk
    exact loads_quality (src.values_unique m hm) hqkeys hvr hr hvk hk

/-- A forwarded event loads inside of a batch, unless its value does not. -/
theorem forwarded_loadable [Nlohmann.Library] (hload : ValueLoads src)
    (hreceived : Utf8.valid event.gatewayReceivedAt = true) :
    Loadable 2 (forwardedTree src.members event.gatewayReceivedAt) := by
  refine forwardedTree_loadable src hreceived
    (fun m hm => (loadable_values src hload m hm).accepted) fun m hm => ?_
  have hheight := (loadable_values src hload m hm).height
  omega

/-- The parsed payload is the source of the event. -/
theorem parse_source [Nlohmann.Library] :
    Nlohmann.parse event.mqttPayload = some ⟨src.pre, .object src.first src.rest, src.post⟩ :=
  Nlohmann.parse_eq_some_iff.mpr ⟨src.text, src.accepted⟩

end Payload

/-! ## Bodies -/

/-- A batch loads when its events do. -/
theorem batchTree_loadable {events : List Tree} (hevents : ∀ t ∈ events, Loadable 2 t) :
    Loadable 0 (batchTree events) where
  accepted := batchTree_accepted (fun t ht => (hevents t ht).accepted) (by decide) rfl rfl
  utf8 := batchTree_accepted (fun t ht => (hevents t ht).utf8) rfl (by decide) (by decide)
  unique := by
    have hlist : (Tree.ofElements (events.map tight)).uniqueKeys = true := by
      rw [Tree.uniqueKeys_ofElements, List.all_eq_true]
      intro e he
      obtain ⟨t, ht, rfl⟩ := List.mem_map.mp he
      exact (hevents t ht).unique
    have hnames : [schemaKey, ascii "events"].Nodup := by decide
    simp only [batchTree, Tree.uniqueKeys_object, List.map_cons, List.map_nil, name_tightMember,
      membersUnique, hnames, decide_true, Bool.true_and, Bool.and_true]
    simp [tightMember, Tree.uniqueKeys, hlist]
  height := by
    have hlist : (Tree.ofElements (events.map tight)).height ≤ 62 + 1 := by
      refine Tree.height_ofElements fun e he => ?_
      obtain ⟨t, ht, rfl⟩ := List.mem_map.mp he
      have hheight := (hevents t ht).height
      exact Nat.le_of_add_le_add_right (hheight : t.height + 2 ≤ 62 + 2)
    have hbatch : (batchTree events).height =
        max 0 (max (Tree.ofElements (events.map tight)).height 0) + 1 := rfl
    omega

/-- A version and at most 500 items are a valid envelope. -/
theorem validateEnvelope_events {items : List Value} (hne : items ≠ [])
    (hsize : items.length ≤ Backend.maxBatchSize) :
    validateEnvelope (.object [(schemaKey, .number oneLiteral), (ascii "events", .array items)]) =
      .valid (.v1, ⟨items, hne, hsize⟩) := by
  have hversion : readSchemaVersion (.number oneLiteral) = .ok .v1 := by rfl
  have hevents : readEvents (.array items) = .ok ⟨items, hne, hsize⟩ := by
    rw [readEvents, dif_neg hne, dif_pos hsize]
  simp only [validateEnvelope, model_eq_valid, Checked.seq_eq_valid, Checked.map_eq_valid,
    field_eq_valid, scalar_eq_valid]
  refine ⟨⟨_, rfl⟩, ⟨_, _, ⟨_, ⟨_, rfl, hversion⟩, rfl⟩, ⟨_, rfl, hevents⟩, rfl⟩, ?_⟩
  have hknown : ∀ name ∈ [schemaKey, ascii "events"], name ∈ envelopeFields := by decide
  exact hknown

/-- A loadable batch reaches its items. -/
theorem parseTelemetryBatch_batchTree {events : List Tree} (hne : events ≠ [])
    (hsize : events.length ≤ Backend.maxBatchSize) (hevents : ∀ t ∈ events, Loadable 2 t)
    (python : Interpreter) :
    ∃ batch, parseTelemetryBatch python (batchTree events).render = .ok batch := by
  have hloads := loads_render_tight (batchTree_loadable hevents) python
  rw [batchTree_value] at hloads
  have hvalues : events.map Tree.value ≠ [] := by simpa using hne
  have hlength : (events.map Tree.value).length ≤ Backend.maxBatchSize := by simpa using hsize
  simp only [parseTelemetryBatch, hloads, validateEnvelope_events hvalues hlength]
  exact ⟨_, rfl⟩

/-! ## Which Batches Arrive -/

/-- The payload can be a part of a batch: it begins with no byte order mark, and its value is an
integer or a number that `Decimal` holds exactly. -/
def sendable [Nlohmann.Library] (payload : Bytes) : Bool :=
  !byteOrderMark.isPrefixOf payload &&
    match Nlohmann.parse payload with
    | none => false
    | some doc =>
      match doc.value.value.get? (ascii "value") with
      | some (.number n) => n.isIntegral || exactDecimal n
      | _ => false

theorem sendable_iff [Nlohmann.Library] {event : Event} (src : EventSource event) :
    sendable event.mqttPayload = true ↔
      skipBom event.mqttPayload = event.mqttPayload ∧ ValueLoads src := by
  have hmark : byteOrderMark.isPrefixOf event.mqttPayload = false ↔
      skipBom event.mqttPayload = event.mqttPayload := by
    rw [skipBom]
    split
    · next hmarked =>
      obtain ⟨tail, htail⟩ := List.isPrefixOf_iff_prefix.mp hmarked
      rw [hmarked, ← htail]
      -- a mark that is skipped makes the text shorter
      have hshorter : tail ≠ byteOrderMark ++ tail := by
        intro heq
        have hlength := congrArg List.length heq
        simp only [List.length_append, byteOrderMark, List.length_cons] at hlength
        omega
      exact iff_of_false Bool.noConfusion hshorter
    · next hmarked => exact iff_of_true (Bool.eq_false_iff.mpr hmarked) rfl
  obtain ⟨v, hv, hfinite⟩ := src.fields.value
  obtain ⟨n, rfl⟩ : ∃ n, v = .number n := by
    cases v with
    | number n => exact ⟨n, rfl⟩
    | _ => simp [Telemetry.isFiniteNumber] at hfinite
  simp only [sendable, parse_source src, hv, Bool.and_eq_true, Bool.not_eq_true', hmark,
    Bool.or_eq_true, ValueLoads, Option.some.injEq, Value.number.injEq, forall_eq']

/-- What a batch of these rows renders, when each can be sent. -/
theorem exists_loadable [Nlohmann.Library] {claimed : List QueuedEvent}
    (haccepted : ∀ row ∈ claimed, Accepted row)
    (hreceived : ∀ row ∈ claimed, Utf8.valid row.event.gatewayReceivedAt = true)
    (hsendable : ∀ row ∈ claimed, sendable row.event.mqttPayload = true) :
    ∃ events, List.Forall₂ (fun (row : QueuedEvent) t =>
      backendEventJson row.event = .ok (Tree.render t)) claimed events ∧
        ∀ t ∈ events, Loadable 2 t := by
  induction claimed with
  | nil => exact ⟨[], .nil, by simp⟩
  | cons row rows ih =>
    rw [List.forall_mem_cons] at haccepted hreceived hsendable
    obtain ⟨events, hevents, hloadable⟩ := ih haccepted.2 hreceived.2 hsendable.2
    obtain ⟨_, _, _, hparse⟩ := haccepted.1
    obtain ⟨src⟩ := Telemetry.exists_source hparse
    -- what can be sent was stored without a mark and with a value that loads
    obtain ⟨hbom, hload⟩ := (sendable_iff src).mp hsendable.1
    have hrow := backendEventJson_source src hbom
    rw [if_pos hreceived.1] at hrow
    exact ⟨_ :: events, .cons hrow hevents,
      List.forall_mem_cons.mpr ⟨forwarded_loadable src hload hreceived.1, hloadable⟩⟩

/-- A row whose forwarded text renders a tree the backend takes can be sent. -/
theorem sendable_of_forwarded [Nlohmann.Library] {row : QueuedEvent} {t : Tree}
    (haccepted : Accepted row) (hrow : backendEventJson row.event = .ok t.render)
    (ht : t.accepted Backend.dialect = true) : sendable row.event.mqttPayload = true := by
  obtain ⟨_, _, _, hparse⟩ := haccepted
  obtain ⟨src⟩ := Telemetry.exists_source hparse
  obtain ⟨hbom, -, hrender⟩ := backendEventJson_ok src hrow
  refine (sendable_iff src).mpr ⟨hbom, fun n hn => ?_⟩
  -- two trees with one text are one tree
  have htight (t : Tree) : renderElement (tight t) = t.render := by
    simp [renderElement, tight, Space.none]
  have heq := renderElement_injective ((htight t).trans (hrender.trans (htight _).symm))
  obtain rfl : t = forwardedTree src.members row.event.gatewayReceivedAt :=
    congrArg Element.value heq
  obtain ⟨first, rest, m, htree, hm, hname, hvalue⟩ := exists_member hn
  obtain ⟨rfl, rfl⟩ := Tree.object.inj htree
  have hmember : trimmed m ∈ forwardedMembers src.members row.event.gatewayReceivedAt := by
    refine List.mem_append_left _ (List.mem_map_of_mem (List.mem_filter.mpr ⟨hm, ?_⟩))
    rw [hname]
    decide
  rw [forwardedTree, Tree.accepted_ofMembers, List.all_eq_true] at ht
  have haccepts := (Bool.and_eq_true _ _ ▸ ht _ hmember).2
  have hnumber : Backend.dialect.number n = true := by
    have hkept : (trimmed m).value = m.value := rfl
    rw [hkept] at haccepts
    cases hmv : m.value with
    | number k =>
      rw [hmv] at haccepts hvalue
      obtain rfl : k = n := Value.number.inj hvalue
      exact haccepts
    | _ => simp [hmv, Tree.value] at hvalue
  by_cases hintegral : n.isIntegral = true
  · exact .inl hintegral
  · right
    simpa only [Backend.dialect, if_neg hintegral] using hnumber

theorem events_accepted {d : Dialect} {events : List Tree}
    (h : (batchTree events).accepted d = true) : ∀ t ∈ events, t.accepted d = true := by
  intro t ht
  simp only [batchTree, Tree.accepted_object, List.all_cons, Bool.and_eq_true] at h
  have hlist : (Tree.ofElements (events.map tight)).accepted d = true := h.2.1.2
  rw [Tree.accepted_ofElements, List.all_eq_true] at hlist
  exact hlist _ (List.mem_map_of_mem (f := tight) ht)

/-- Rows in the order of their forwarded texts. -/
theorem sendable_rows [Nlohmann.Library] {claimed : List QueuedEvent} {events : List Tree}
    (haccepted : ∀ row ∈ claimed, Accepted row)
    (hrows : List.Forall₂ (fun (row : QueuedEvent) t =>
      backendEventJson row.event = .ok (Tree.render t)) claimed events)
    (hevents : ∀ t ∈ events, t.accepted Backend.dialect = true) :
    ∀ row ∈ claimed, sendable row.event.mqttPayload = true := by
  induction hrows with
  | nil => simp
  | cons hrow _ ih =>
    rw [List.forall_mem_cons] at haccepted hevents ⊢
    exact ⟨sendable_of_forwarded haccepted.1 hrow hevents.1, ih haccepted.2 hevents.2⟩

/-- Every payload of a batch that the backend has taken can be sent. -/
theorem sendable_of_parsed [Nlohmann.Library] {python : Interpreter} {claimed : List QueuedEvent}
    {body : Bytes} {batch : ValidatedTelemetryBatch} (haccepted : ∀ row ∈ claimed, Accepted row)
    (hbody : batchJson claimed = .ok body) (hbatch : parseTelemetryBatch python body = .ok batch) :
    ∀ row ∈ claimed, sendable row.event.mqttPayload = true := by
  have houts := hbody
  simp only [batchJson, except_bind_eq_ok, mapM_eq_ok] at houts
  obtain ⟨outs, houts, -⟩ := houts
  obtain ⟨events, hevents, -⟩ := exists_carried haccepted houts
  obtain rfl := Except.ok.inj ((batchJson_eq hevents).symm.trans hbody)
  obtain ⟨payload, items, hloads, -, -⟩ := parseTelemetryBatch_eq_ok hbatch
  -- The body is one value with no space around it.
  have htight : (batchTree events).render = renderElement (tight (batchTree events)) := by
    simp [renderElement, tight, Space.none]
  rw [htight] at hloads
  exact sendable_rows haccepted hevents (events_accepted (loads_render hloads).1)

/-- The batches that are sent and reach per-item outcomes are those whose payloads can all be
sent. -/
theorem batch_reaches_items_iff [Nlohmann.Library] (python : Interpreter)
    {claimed : List QueuedEvent} (hne : claimed ≠ [])
    (hsize : claimed.length ≤ Backend.maxBatchSize) (haccepted : ∀ row ∈ claimed, Accepted row)
    (hreceived : ∀ row ∈ claimed, Utf8.valid row.event.gatewayReceivedAt = true) :
    (∃ body batch, batchJson claimed = .ok body ∧ parseTelemetryBatch python body = .ok batch) ↔
      ∀ row ∈ claimed, sendable row.event.mqttPayload = true := by
  constructor
  · rintro ⟨body, batch, hbody, hbatch⟩
    exact sendable_of_parsed haccepted hbody hbatch
  · intro hsendable
    obtain ⟨events, hevents, hloadable⟩ := exists_loadable haccepted hreceived hsendable
    have hlength := hevents.length_eq
    obtain ⟨batch, hbatch⟩ := parseTelemetryBatch_batchTree
      (List.ne_nil_of_length_pos (hlength ▸ List.length_pos_of_ne_nil hne))
      (hlength ▸ hsize) hloadable python
    exact ⟨_, batch, batchJson_eq hevents, hbatch⟩

/-- A batch of one clean message. -/
theorem batch_reaches_items_sample :
    ∃ body batch, batchJson [⟨Telemetry.sampleEvent, .inFlight, 1⟩] = .ok body ∧
      parseTelemetryBatch ⟨1000, by decide⟩ body = .ok batch := by
  have hsendable : sendable Telemetry.samplePayload = true := by decide +kernel
  refine (batch_reaches_items_iff ⟨1000, by decide⟩ (List.cons_ne_nil _ _) (by decide) ?_ ?_).mpr ?_
  · exact List.forall_mem_singleton.mpr ⟨_, _, _, Telemetry.parse_sample⟩
  · exact List.forall_mem_singleton.mpr (by decide)
  · exact List.forall_mem_singleton.mpr hsendable

/-- A number that is zero as a double and none for `Decimal`. -/
def tinyPayload : Bytes :=
  ascii "\x7b\"schema_version\":1,\"device_id\":\"d-1\",\"boot_id\":\"b\",\"sequence_number\":7," ++
    ascii "\"measured_at\":null,\"device_uptime_ms\":1,\"metric\":\"temperature\"," ++
    ascii "\"value\":1E-99999999999999999999,\"unit\":\"celsius\"," ++
    ascii "\"quality\":\x7b\"reading\":\"valid\",\"clock\":\"unknown\"\x7d\x7d"

def tinyEvent : Event := ⟨ascii "d-1", ascii "b", 7, tinyPayload, Telemetry.sampleReceivedAt⟩

theorem parse_tinyPayload :
    Telemetry.parse Telemetry.sampleTopic tinyPayload Telemetry.sampleReceivedAt = .ok tinyEvent := by
  decide +kernel

/-- The gateway accepts events that keep a batch from its items. -/
theorem batch_poisoned : ¬ ∀ (python : Interpreter) (claimed : List QueuedEvent),
    claimed ≠ [] → claimed.length ≤ 500 →
    claimed.Pairwise (fun a b => a.event.deviceId ≠ b.event.deviceId ∨
      a.event.bootId ≠ b.event.bootId ∨ a.event.sequenceNumber ≠ b.event.sequenceNumber) →
    (∀ row ∈ claimed, Accepted row) →
    (∀ row ∈ claimed, Utf8.valid row.event.gatewayReceivedAt = true) →
    ∃ body batch, batchJson claimed = .ok body ∧ parseTelemetryBatch python body = .ok batch := by
  intro hall
  obtain ⟨body, batch, hbody, hbatch⟩ := hall ⟨1000, by decide⟩ [⟨tinyEvent, .inFlight, 1⟩]
    (List.cons_ne_nil _ _) (by decide) (List.pairwise_singleton _ _)
    (List.forall_mem_singleton.mpr ⟨_, _, _, parse_tinyPayload⟩)
    (List.forall_mem_singleton.mpr (by decide))
  -- the value is zero as a double and has no exact decimal, so the body does not load
  have hunread : (match batchJson [⟨tinyEvent, .inFlight, 1⟩] with
      | .ok body => (loads ⟨1000, by decide⟩ body).isNone
      | .error _ => false) = true := by
    decide +kernel
  simp only [hbody] at hunread
  obtain ⟨payload, items, hloads, -, -⟩ := parseTelemetryBatch_eq_ok hbatch
  rw [hloads] at hunread
  exact Bool.noConfusion hunread

end EquipmentMonitoring.Exchange
