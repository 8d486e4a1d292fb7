import EquipmentMonitoring.Exchange.Batches
import EquipmentMonitoring.Foundations.Json.StringText
import EquipmentMonitoring.Gateway.Timestamps

/-!
# Contract-Valid Events at the Gateway

The gateway and the backend validate one event separately, in two languages. An event the backend
accepts passes every check of the gateway except two: the gateway counts the octets of an identifier
where the contract counts its characters, and it converts the value to a double where the contract
keeps a decimal.

## Layers

- `ContractValid`: an event of the contract, in some spelling
- `acceptedFields`: the gateway finds every field as it wants it
- `contract_valid_accepted_iff`: which events the gateway accepts
-/

namespace EquipmentMonitoring.Exchange

open EquipmentMonitoring.Json EquipmentMonitoring.Nlohmann EquipmentMonitoring.Rfc3339
open EquipmentMonitoring.Forwarder EquipmentMonitoring.Backend
open EquipmentMonitoring.Telemetry (Event AcceptedFields topicDeviceId isOneLevel maxPayloadBytes
  exactKeys_eq_ok identifier_eq_ok counter_eq_ok parse_eq_ok parse_of_fields contains_iff
  get?_eq_some_mem isFiniteNumber validMeasuredAt_render samplePayload sampleReceivedAt)

/-! ## The Contract -/

/-- `equipment/<device_id>/telemetry`. -/
def topicOf (deviceId : Bytes) : Bytes := ascii "equipment/" ++ deviceId ++ ascii "/telemetry"

/-- A spelling of a device's event that satisfies the contract: an object of schema version 1
without the field that devices omit, whose content the backend's `TelemetryEvent` accepts. -/
structure ContractValid (doc : Element Tree) (receivedAt : Bytes) (event : TelemetryEvent) :
    Prop where
  unique : doc.value.uniqueKeys = true
  version : ∃ n, doc.value.value.get? (ascii "schema_version") = some (.number n) ∧
    n.isIntegral = true ∧ n.intValue = 1
  omits : receiptKey ∉ doc.value.value.members.map Prod.fst
  accepts : validateEvent (backendEvent doc.value.value receivedAt) = .valid event
  oneLevel : isOneLevel event.deviceId.text = true
  size : (renderElement doc).length ≤ maxPayloadBytes

/-- The value rounds to a finite double. -/
def RoundsFinite (value : Decimal) : Prop := |value.toRat| < doubleBound

theorem topicDeviceId_topicOf {id : Bytes} (hne : id ≠ []) (hlevel : isOneLevel id = true) :
    topicDeviceId (topicOf id) =
      if id.length ≤ 128 then .ok id else .error (.invalidArgument "invalid_topic") := by
  have hpos := List.length_pos_of_ne_nil hne
  have hbefore : (ascii "equipment/").length = 10 := rfl
  have hafter : (ascii "/telemetry").length = 10 := rfl
  have hlength : (topicOf id).length = 20 + id.length := by
    rw [topicOf, List.length_append, List.length_append, hbefore, hafter]
    omega
  have hprefix : (topicOf id).take 10 = ascii "equipment/" := by
    rw [topicOf, List.append_assoc, ← hbefore, List.take_left]
  have hsuffix : (topicOf id).drop (20 + id.length - 10) = ascii "/telemetry" := by
    have hsplit : 20 + id.length - 10 = (ascii "equipment/" ++ id).length := by
      rw [List.length_append, hbefore]
      omega
    rw [topicOf, hsplit, List.drop_left]
  -- Ten bytes before the id and ten after it.
  have hdevice : ((topicOf id).drop 10).take (20 + id.length - 10 - 10) = id := by
    have hsub : 20 + id.length - 10 - 10 = id.length := by omega
    rw [topicOf, List.append_assoc, hsub, ← hbefore, List.drop_left, List.take_left]
  have hlong : decide (20 + id.length > 10 + 10) = true := decide_eq_true (by omega)
  simp only [topicDeviceId, hbefore, hafter, hlength, hprefix, hsuffix, hdevice, hlong, hlevel,
    beq_self_eq_true, Bool.and_self, Bool.and_true]
  by_cases h : id.length ≤ 128
  · simp [h, Telemetry.require, bind, Except.bind, pure, Except.pure]
  · simp [h, Telemetry.require, bind, Except.bind]

/-! ## Values of Trees -/

theorem readable_of_string {t : Tree} {text : Bytes} (h : t.value = .string text)
    (hvalid : Utf8.valid text = true) : Readable 0 t := by
  cases t with
  | string l =>
    obtain rfl : Literal.decode l = text := Value.string.inj h
    exact ⟨Bool.and_eq_true _ _ ▸ text_of_decode hvalid, rfl, Nat.le_refl 0⟩
  | _ => simp [Tree.value] at h

theorem readable_of_number {t : Tree} {n : Number} (h : t.value = .number n)
    (hfinite : finiteDouble n = true) : Readable 0 t := by
  cases t with
  | number m =>
    obtain rfl : m = n := Value.number.inj h
    exact ⟨hfinite, rfl, Nat.le_refl 0⟩
  | _ => simp [Tree.value] at h

theorem readable_of_null {t : Tree} (h : t.value = .null) : Readable 0 t := by
  cases t with
  | null => exact ⟨rfl, rfl, Nat.le_refl 0⟩
  | _ => simp [Tree.value] at h

/-- An integer of 63 bits is a finite double. -/
theorem finiteDouble_of_int {n : Number} (hintegral : n.isIntegral = true)
    (hlow : 0 ≤ n.intValue) (hhigh : n.intValue ≤ 2 ^ 63 - 1) : finiteDouble n = true := by
  have hle : n.int.value ≤ 2 ^ 63 - 1 := by
    cases hneg : n.negative <;> simp only [Number.intValue, hneg] at hlow hhigh <;> omega
  have hlt : n.int.value < doubleBound := hle.trans_lt (by decide +kernel)
  rw [finiteDouble_iff, n.coefficient_of_integral hintegral, n.exponent_of_integral hintegral,
    zpow_zero, mul_one]
  exact_mod_cast hlt

theorem finiteDouble_iff_rounds (n : Number) :
    finiteDouble n = true ↔ RoundsFinite (loadedDecimal n) := by
  rw [finiteDouble_iff, RoundsFinite, abs_loadedDecimal]

theorem readable_identifier {t : Tree} {id : Identifier} (h : readIdentifier t.value = .ok id) :
    Readable 0 t :=
  readable_of_string (readIdentifier_eq_ok h) id.utf8

theorem readable_counter {t : Tree} {c : Counter} (h : readCounter t.value = .ok c) :
    Readable 0 t := by
  obtain ⟨n, hn, hintegral, hint⟩ := readCounter_eq_ok h
  have hle := c.le
  simp only [maxCounter] at hle
  exact readable_of_number hn (finiteDouble_of_int hintegral (by omega) (by omega))

theorem readable_literal {α : Type} {options : List (Bytes × α)}
    (hoptions : ∀ text ∈ options.map Prod.fst, Utf8.valid text = true) {t : Tree} {a : α}
    (h : readLiteral options t.value = .ok a) : Readable 0 t := by
  obtain ⟨text, ht, hmem⟩ := readLiteral_eq_ok h
  exact readable_of_string ht (hoptions text (List.mem_map_of_mem hmem))

theorem readable_timestamp {t : Tree} {time : Option Time}
    (h : readNullable readTimestamp t.value = .ok time) : Readable 0 t := by
  rcases readMeasuredAt_eq_ok h with hnull | ⟨x, hx, -⟩
  · exact readable_of_null hnull
  · exact readable_of_string hx x.valid_render

/-! ## Members of Objects -/

/-- What is found under a key is the value of a member with that name. -/
theorem exists_member {t : Tree} {key : Bytes} {v : Value} (h : t.value.get? key = some v) :
    ∃ first rest m, t = .object first rest ∧ m ∈ first :: rest ∧ m.name = key ∧
      m.value.value = v := by
  cases t with
  | object first rest =>
    have hmem := get?_eq_some_mem h
    rw [Tree.value_object, Value.members] at hmem
    obtain ⟨m, hm, heq⟩ := List.mem_map.mp hmem
    obtain ⟨hname, hvalue⟩ := Prod.mk.inj heq
    exact ⟨first, rest, m, rfl, hm, hname, hvalue⟩
  | _ => simp [Tree.value, Value.get?, Value.members] at h

theorem get?_of_mem {ms : List (Bytes × Value)} (hnodup : (ms.map Prod.fst).Nodup) {p : Bytes × Value}
    (hp : p ∈ ms) : (Value.object ms).get? p.1 = some p.2 := by
  simp only [Value.get?, Value.members]
  induction ms with
  | nil => simp at hp
  | cons q rest ih =>
    rw [List.map_cons, List.nodup_cons] at hnodup
    rcases List.mem_cons.mp hp with rfl | hp
    · simp
    · have hne : q.1 ≠ p.1 := fun h => hnodup.1 (h ▸ List.mem_map_of_mem hp)
      simpa [hne] using ih hnodup.2 hp

theorem readable_object {height : Nat} {first : Member Tree} {rest : List (Member Tree)}
    (hunique : (Tree.object first rest).uniqueKeys = true)
    (hkeys : ∀ m ∈ first :: rest, Utf8.valid m.name = true)
    (hvalues : ∀ m ∈ first :: rest, Readable height m.value) :
    Readable (height + 1) (.object first rest) where
  accepted := by
    rw [Tree.accepted_object, List.all_eq_true]
    intro m hm
    rw [Bool.and_eq_true]
    exact ⟨Bool.and_eq_true _ _ ▸ text_of_decode (hkeys m hm), (hvalues m hm).accepted⟩
  unique := hunique
  height := by
    have hheight : (Tree.ofMembers (first :: rest)).height ≤ height + 1 :=
      Tree.height_ofMembers fun m hm => (hvalues m hm).height
    exact hheight

/-! ## Events -/

section Reads

variable {e : Value} {receivedAt : Bytes} {α : Type} {name : String}
  {read : Value → Except ErrorCode α} {a : α}

/-- A field the backend has read is a field of the event as sent, with the same value. -/
theorem reads_sent (h : Reads (backendEvent e receivedAt) name read a)
    (hschema : ascii name ≠ schemaKey) (hreceipt : ascii name ≠ receiptKey) : Reads e name read a := by
  obtain ⟨v, hv, ha⟩ := h
  exact ⟨v, (get?_backendEvent e receivedAt hschema hreceipt).symm.trans hv, ha⟩

/-- What was read of a field is what its value reads as. -/
theorem read_of_get? (h : Reads e name read a) {v : Value} (hv : e.get? (ascii name) = some v) :
    read v = .ok a := by
  obtain ⟨w, hw, ha⟩ := h
  obtain rfl := Option.some.inj (hv.symm.trans hw)
  exact ha

theorem mem_of_reads (h : Reads e name read a) : ascii name ∈ e.members.map Prod.fst := by
  obtain ⟨v, hv, -⟩ := h
  exact List.mem_map.mpr ⟨_, get?_eq_some_mem hv, rfl⟩

theorem identifier_of_reads {reason : String} {id : Identifier} (h : Reads e name readIdentifier id)
    (hlength : id.text.length ≤ 128) :
    ∃ v, e.get? (ascii name) = some v ∧ Telemetry.identifier v reason = .ok id.text := by
  obtain ⟨v, hv, hread⟩ := h
  exact ⟨v, hv, identifier_eq_ok.mpr ⟨readIdentifier_eq_ok hread, id.ne_nil, hlength, id.noNul⟩⟩

theorem counter_of_reads {reason : String} {c : Counter} (h : Reads e name readCounter c) :
    ∃ v, e.get? (ascii name) = some v ∧ Telemetry.counter v reason = .ok c.value := by
  obtain ⟨v, hv, hread⟩ := h
  obtain ⟨n, hn, hintegral, hint⟩ := readCounter_eq_ok hread
  have hle : (c.value : Int) ≤ 2 ^ 63 - 1 := by
    have := c.le
    simp only [maxCounter] at this
    omega
  exact ⟨v, hv, counter_eq_ok.mpr ⟨n, hn, hintegral, hint, Int.natCast_nonneg _, hle⟩⟩

/-- A field that may have one text only has that text. -/
theorem isText_of_reads {text : Bytes} {option : α} (h : Reads e name (readLiteral [(text, option)]) a) :
    ∃ v, e.get? (ascii name) = some v ∧ isText v text = true := by
  obtain ⟨v, hv, hread⟩ := h
  obtain ⟨t, rfl, ht⟩ := readLiteral_eq_ok hread
  obtain ⟨rfl, -⟩ := Prod.mk.inj (List.mem_singleton.mp ht)
  exact ⟨_, hv, beq_self_eq_true _⟩

end Reads

/-- An object has exactly the expected keys if these are its distinct names. -/
theorem exactKeys_of_names {v : Value} {expected : List Bytes} {reason : String}
    (hobject : ∃ members, v = .object members) (hnodup : (v.members.map Prod.fst).Nodup)
    (hexpected : expected.Nodup)
    (hnames : ∀ name, name ∈ v.members.map Prod.fst ↔ name ∈ expected) :
    Telemetry.exactKeys v expected reason = .ok () := by
  obtain ⟨members, rfl⟩ := hobject
  have hperm := (List.perm_ext_iff_of_nodup hnodup hexpected).mpr hnames
  refine exactKeys_eq_ok.mpr ⟨rfl, ?_, fun key hkey => (hnames key).mpr hkey⟩
  rw [← hperm.length_eq, List.length_map]

/-- Each member's value is what is found under its name. -/
theorem get?_member {first : Member Tree} {rest : List (Member Tree)}
    (hunique : (Tree.object first rest).uniqueKeys = true) {m : Member Tree}
    (hm : m ∈ first :: rest) :
    (Tree.object first rest).value.get? m.name = some m.value.value := by
  have hnodup := Tree.names_nodup hunique
  rw [Tree.value_object] at hnodup ⊢
  exact get?_of_mem hnodup (List.mem_map_of_mem (f := fun m => (m.name, m.value.value)) hm)

section Quality

variable {t : Tree} (hunique : t.uniqueKeys = true) {quality : TelemetryQuality}
  (hvalid : validateQuality t.value = .valid quality)

include hunique hvalid

theorem quality_keys :
    Telemetry.exactKeys t.value Telemetry.qualityFields "invalid_quality" = .ok () := by
  obtain ⟨hobject, hnames, hreading, hclock⟩ := validateQuality_eq_valid.mp hvalid
  refine exactKeys_of_names hobject (Tree.names_nodup hunique) (by decide) fun name =>
    ⟨hnames name, fun hname => ?_⟩
  rcases List.mem_pair.mp hname with rfl | rfl
  · exact mem_of_reads hreading
  · exact mem_of_reads hclock

theorem readable_quality : Readable 1 t := by
  obtain ⟨-, hnames, hreading, hclock⟩ := validateQuality_eq_valid.mp hvalid
  obtain ⟨first, rest, -, rfl, -⟩ := exists_member hreading.choose_spec.1
  have hname (m : Member Tree) (hm : m ∈ first :: rest) : m.name ∈ Backend.qualityFields :=
    hnames _ (List.mem_map.mpr ⟨_, get?_eq_some_mem (get?_member hunique hm), rfl⟩)
  refine readable_object hunique (fun m hm => ?_) fun m hm => ?_
  · have hvalid : ∀ name ∈ Backend.qualityFields, Utf8.valid name = true := by decide
    exact hvalid _ (hname m hm)
  · have hget := get?_member hunique hm
    rcases List.mem_pair.mp (hname m hm) with heq | heq <;> rw [heq] at hget
    · exact readable_literal (by decide) (read_of_get? hreading hget)
    · exact readable_literal (by decide) (read_of_get? hclock hget)

end Quality

namespace ContractValid

variable {doc : Element Tree} {receivedAt : Bytes} {event : TelemetryEvent}
  (h : ContractValid doc receivedAt event)

theorem get?_eq {name : String} (hschema : ascii name ≠ schemaKey)
    (hreceipt : ascii name ≠ receiptKey) :
    (backendEvent doc.value.value receivedAt).get? (ascii name) =
      doc.value.value.get? (ascii name) :=
  get?_backendEvent _ _ hschema hreceipt

include h

/-- What validation has found in the event as it was sent. -/
theorem fields : EventFields (backendEvent doc.value.value receivedAt) event :=
  validateEvent_eq_valid.mp h.accepts

theorem exists_object : ∃ first rest, doc.value = .object first rest := by
  obtain ⟨n, hn, -⟩ := h.version
  obtain ⟨first, rest, -, htree, -⟩ := exists_member hn
  exact ⟨first, rest, htree⟩

/-- The fields are the ten of the device's event. -/
theorem names_iff (name : Bytes) :
    name ∈ doc.value.value.members.map Prod.fst ↔ name ∈ Telemetry.eventFields := by
  constructor
  · intro hname
    by_cases hschema : name = schemaKey
    · rw [hschema]
      decide
    · have hsent : name ∈ (backendEvent doc.value.value receivedAt).members.map Prod.fst := by
        obtain ⟨p, hp, rfl⟩ := List.mem_map.mp hname
        exact List.mem_map_of_mem
          (List.mem_append_left _ (List.mem_filter.mpr ⟨hp, by simpa using hschema⟩))
      -- the backend knows one name more, the receipt, which the sender omits
      have hne : name ≠ receiptKey := fun heq => h.omits (heq ▸ hname)
      have hshared : ∀ field ∈ Backend.eventFields, field ≠ receiptKey →
          field ∈ Telemetry.eventFields := by decide
      exact hshared name (h.fields.names name hsent) hne
  · intro hname
    have hf := h.fields
    obtain ⟨n, hn, -⟩ := h.version
    obtain ⟨q, hq, -⟩ := hf.quality
    rw [get?_eq (by decide) (by decide)] at hq
    simp only [Telemetry.eventFields, List.mem_cons, List.not_mem_nil, or_false] at hname
    rcases hname with rfl | rfl | rfl | rfl | rfl | rfl | rfl | rfl | rfl | rfl
    · exact List.mem_map.mpr ⟨_, get?_eq_some_mem hn, rfl⟩
    · exact mem_of_reads (reads_sent hf.deviceId (by decide) (by decide))
    · exact mem_of_reads (reads_sent hf.bootId (by decide) (by decide))
    · exact mem_of_reads (reads_sent hf.sequenceNumber (by decide) (by decide))
    · exact mem_of_reads (reads_sent hf.measuredAt (by decide) (by decide))
    · exact mem_of_reads (reads_sent hf.deviceUptimeMs (by decide) (by decide))
    · exact mem_of_reads (reads_sent hf.metric (by decide) (by decide))
    · exact mem_of_reads (reads_sent hf.value (by decide) (by decide))
    · exact mem_of_reads (reads_sent hf.unit (by decide) (by decide))
    · exact List.mem_map.mpr ⟨_, get?_eq_some_mem hq, rfl⟩

theorem quality_valid {q : Value} (hq : doc.value.value.get? (ascii "quality") = some q) :
    validateQuality q = .valid event.quality := by
  obtain ⟨q', hq', hvalid⟩ := h.fields.quality
  rw [get?_eq (by decide) (by decide), hq] at hq'
  obtain rfl := Option.some.inj hq'
  exact validateQuality_eq_valid.mpr hvalid

theorem unique_member {first : Member Tree} {rest : List (Member Tree)}
    (htree : doc.value = .object first rest) {m : Member Tree} (hm : m ∈ first :: rest) :
    m.value.uniqueKeys = true := by
  have hunique := h.unique
  rw [htree, Tree.uniqueKeys_object, Bool.and_eq_true, membersUnique_eq_all, List.all_eq_true]
    at hunique
  exact hunique.2 m hm

/-- The gateway finds every field as it wants it. -/
theorem acceptedFields (hdevice : event.deviceId.text.length ≤ 128)
    (hboot : event.bootId.text.length ≤ 128) (hvalue : RoundsFinite event.value) :
    AcceptedFields doc.value.value ⟨event.deviceId.text, event.bootId.text,
      event.sequenceNumber.value, renderElement doc, receivedAt⟩ where
  keys := by
    obtain ⟨first, rest, htree⟩ := h.exists_object
    have hobject := congrArg Tree.value htree
    exact exactKeys_of_names ⟨_, hobject⟩ (Tree.names_nodup h.unique) (by decide) h.names_iff
  schemaVersion := by
    obtain ⟨n, hn, hintegral, hone⟩ := h.version
    refine ⟨_, hn, ?_⟩
    rw [Telemetry.isOne, Telemetry.numberKind_toInt? hintegral (by omega), hone]
    decide
  deviceId := identifier_of_reads (reads_sent h.fields.deviceId (by decide) (by decide)) hdevice
  bootId := identifier_of_reads (reads_sent h.fields.bootId (by decide) (by decide)) hboot
  sequenceNumber := counter_of_reads (reads_sent h.fields.sequenceNumber (by decide) (by decide))
  deviceUptime := by
    obtain ⟨v, hv, hcounter⟩ :=
      counter_of_reads (reads_sent h.fields.deviceUptimeMs (by decide) (by decide))
    exact ⟨v, _, hv, hcounter⟩
  measuredAt := by
    obtain ⟨v, hv, hread⟩ := reads_sent h.fields.measuredAt (by decide) (by decide)
    refine ⟨v, hv, ?_⟩
    rcases readMeasuredAt_eq_ok hread with rfl | ⟨x, rfl, hvalid⟩
    · rfl
    · exact (validMeasuredAt_render x).trans (congrArg Except.ok hvalid)
  metric := isText_of_reads (reads_sent h.fields.metric (by decide) (by decide))
  unit := isText_of_reads (reads_sent h.fields.unit (by decide) (by decide))
  value := by
    obtain ⟨v, hv, hread⟩ := reads_sent h.fields.value (by decide) (by decide)
    obtain ⟨n, rfl, hn⟩ := readTemperature_eq_ok hread
    refine ⟨_, hv, ?_⟩
    rw [isFiniteNumber, finiteDouble_iff_rounds, hn]
    exact hvalue
  quality := by
    obtain ⟨q, hget, -⟩ := h.fields.quality
    rw [get?_eq (by decide) (by decide)] at hget
    obtain ⟨first, rest, m, htree, hm, -, rfl⟩ := exists_member hget
    have hunique := h.unique_member htree hm
    have hvalid := h.quality_valid hget
    obtain ⟨-, -, hreading, hclock⟩ := validateQuality_eq_valid.mp hvalid
    refine ⟨_, hget, quality_keys hunique hvalid, isText_of_reads hreading, ?_⟩
    obtain ⟨v, hv, hread⟩ := hclock
    obtain ⟨text, rfl, htext⟩ := readLiteral_eq_ok hread
    -- both sides know the same clock qualities
    have hknown : ∀ o ∈ Backend.clockQualities,
        Telemetry.clockQualities.any (isText (.string o.1)) = true := by decide
    exact ⟨_, hv, hknown _ htext⟩

theorem readable_member (hvalue : RoundsFinite event.value) {first : Member Tree}
    {rest : List (Member Tree)} (htree : doc.value = .object first rest) {m : Member Tree}
    (hm : m ∈ first :: rest) : Readable 1 m.value := by
  have hget : doc.value.value.get? m.name = some m.value.value := by
    have hunique := h.unique
    rw [htree] at hunique ⊢
    exact get?_member hunique hm
  have hname := (h.names_iff m.name).mp (List.mem_map.mpr ⟨_, get?_eq_some_mem hget, rfl⟩)
  -- one case for each of the ten fields
  simp only [Telemetry.eventFields, List.mem_cons, List.not_mem_nil, or_false] at hname
  rcases hname with hn | hn | hn | hn | hn | hn | hn | hn | hn | hn <;> rw [hn] at hget
  · obtain ⟨n, hversion, hintegral, hone⟩ := h.version
    exact (readable_of_number (Option.some.inj (hget.symm.trans hversion))
      (finiteDouble_of_int hintegral (by omega) (by omega))).mono (Nat.zero_le 1)
  · exact (readable_identifier (read_of_get? (reads_sent h.fields.deviceId (by decide) (by decide))
      hget)).mono (Nat.zero_le 1)
  · exact (readable_identifier (read_of_get? (reads_sent h.fields.bootId (by decide) (by decide))
      hget)).mono (Nat.zero_le 1)
  · exact (readable_counter (read_of_get?
      (reads_sent h.fields.sequenceNumber (by decide) (by decide)) hget)).mono (Nat.zero_le 1)
  · exact (readable_timestamp (read_of_get?
      (reads_sent h.fields.measuredAt (by decide) (by decide)) hget)).mono (Nat.zero_le 1)
  · exact (readable_counter (read_of_get?
      (reads_sent h.fields.deviceUptimeMs (by decide) (by decide)) hget)).mono (Nat.zero_le 1)
  · exact (readable_literal (by decide) (read_of_get?
      (reads_sent h.fields.metric (by decide) (by decide)) hget)).mono (Nat.zero_le 1)
  · obtain ⟨n, hn, hread⟩ := readTemperature_eq_ok
      (read_of_get? (reads_sent h.fields.value (by decide) (by decide)) hget)
    have hfinite : finiteDouble n = true := (finiteDouble_iff_rounds n).mpr (hread ▸ hvalue)
    exact (readable_of_number hn hfinite).mono (Nat.zero_le 1)
  · exact (readable_literal (by decide) (read_of_get?
      (reads_sent h.fields.unit (by decide) (by decide)) hget)).mono (Nat.zero_le 1)
  · exact readable_quality (h.unique_member htree hm) (h.quality_valid hget)

/-- The gateway's parser takes the spelling. -/
theorem readable (hvalue : RoundsFinite event.value) : Readable 2 doc.value := by
  obtain ⟨first, rest, htree⟩ := h.exists_object
  have hunique := h.unique
  rw [htree] at hunique ⊢
  refine readable_object hunique (fun m hm => ?_) fun m hm => h.readable_member hvalue htree hm
  have hvalid : ∀ name ∈ Telemetry.eventFields, Utf8.valid name = true := by decide
  refine hvalid _ ((h.names_iff m.name).mp ?_)
  rw [htree]
  exact List.mem_map.mpr ⟨_, get?_eq_some_mem (get?_member hunique hm), rfl⟩

/-- A spelling begins with white space or a brace, so with no byte order mark. -/
theorem skipBom_render : skipBom (renderElement doc) = renderElement doc := by
  obtain ⟨first, rest, htree⟩ := h.exists_object
  obtain ⟨⟨before, hbefore⟩, v, after⟩ := doc
  obtain rfl : v = .object first rest := htree
  have hfirst : (renderElement ⟨⟨before, hbefore⟩, .object first rest, after⟩).head? ≠ some 0xEF := by
    cases before with
    | nil => simp [renderElement, Tree.render]
    | cons b bs =>
      rintro heq
      obtain rfl : b = 0xEF := by simpa [renderElement] using heq
      simp [isSpace] at hbefore
  rw [skipBom, if_neg]
  intro hprefix
  obtain ⟨tail, htail⟩ := List.isPrefixOf_iff_prefix.mp hprefix
  exact hfirst (by rw [← htail]; rfl)

/-- The tree the gateway has parsed a spelling to is the one spelled. -/
theorem eq_of_parse [Nlohmann.Library] {parsed : Element Tree}
    (hparsed : Nlohmann.parse (renderElement doc) = some parsed) : parsed = doc := by
  have hrender := (Nlohmann.parse_eq_some_iff.mp hparsed).1
  rw [h.skipBom_render] at hrender
  exact renderElement_injective hrender

/-- Within the gateway's own limits the event is accepted, with its identity. -/
theorem parse_eq [Nlohmann.Library] (hdevice : event.deviceId.text.length ≤ 128)
    (hboot : event.bootId.text.length ≤ 128) (hvalue : RoundsFinite event.value) :
    Telemetry.parse (topicOf event.deviceId.text) (renderElement doc) receivedAt =
      .ok ⟨event.deviceId.text, event.bootId.text, event.sequenceNumber.value, renderElement doc,
        receivedAt⟩ := by
  have hreadable := h.readable hvalue
  have hreceipt : contains doc.value.value receiptKey = false := by
    rw [← Bool.not_eq_true, contains_iff]
    exact h.omits
  refine parse_of_fields rfl rfl h.size ?_ ?_ ?_ h.unique hreceipt
    (h.acceptedFields hdevice hboot hvalue)
  · rw [topicDeviceId_topicOf event.deviceId.ne_nil h.oneLevel, if_pos hdevice]
  · exact Nlohmann.parse_eq_some_iff.mpr ⟨h.skipBom_render.symm, hreadable.accepted⟩
  · refine (within_height doc.value 0).mono ?_
    rw [Nat.zero_add]
    exact hreadable.height.trans (by decide)

end ContractValid

/-- Which contract-valid events the gateway accepts: those whose identifiers have at most 128 octets
and whose value rounds to a finite double. -/
theorem contract_valid_accepted_iff [Nlohmann.Library] {doc : Element Tree} {receivedAt : Bytes}
    {event : TelemetryEvent} (h : ContractValid doc receivedAt event) :
    (∃ accepted, Telemetry.parse (topicOf event.deviceId.text) (renderElement doc) receivedAt =
      .ok accepted) ↔
      event.deviceId.text.length ≤ 128 ∧ event.bootId.text.length ≤ 128 ∧
        RoundsFinite event.value := by
  constructor
  · rintro ⟨accepted, hparse⟩
    obtain ⟨-, -, -, -, parsed, hparsed, -, hfields⟩ := parse_eq_ok hparse
    obtain rfl := h.eq_of_parse hparsed
    -- The gateway bounds the text it checked, which is the text the contract read.
    have hlength {name reason : String} {id : Identifier} {text : Bytes}
        (hread : Reads (backendEvent parsed.value.value receivedAt) name readIdentifier id)
        (hname : ascii name ≠ schemaKey ∧ ascii name ≠ receiptKey)
        (hchecked : ∃ v, parsed.value.value.get? (ascii name) = some v ∧
          Telemetry.identifier v reason = .ok text) : id.text.length ≤ 128 := by
      obtain ⟨v, hv, hid⟩ := hchecked
      obtain ⟨rfl, -, hle, -⟩ := identifier_eq_ok.mp hid
      have hsame := readIdentifier_eq_ok (read_of_get? (reads_sent hread hname.1 hname.2) hv)
      rwa [← Value.string.inj hsame]
    refine ⟨hlength h.fields.deviceId (by decide) hfields.deviceId,
      hlength h.fields.bootId (by decide) hfields.bootId, ?_⟩
    obtain ⟨v, hv, hfinite⟩ := hfields.value
    obtain ⟨n, rfl, hn⟩ := readTemperature_eq_ok
      (read_of_get? (reads_sent h.fields.value (by decide) (by decide)) hv)
    -- the gateway keeps a double: it is finite exactly when the decimal rounds to one
    rw [← hn, ← finiteDouble_iff_rounds]
    exact hfinite
  · rintro ⟨hdevice, hboot, hvalue⟩
    exact ⟨_, h.parse_eq hdevice hboot hvalue⟩

/-! ## Two Messages -/

def hasVersionOne (data : Value) : Bool :=
  match data.get? (ascii "schema_version") with
  | some (.number n) => n.isIntegral && n.intValue == 1
  | _ => false

/-- The tree of a payload and the event it spells, when that satisfies the contract. -/
def contractEvent (payload receivedAt : Bytes) : Option (Element Tree × TelemetryEvent) :=
  match (readDocument Dialect.rfc8259 payload).result with
  | none => none
  | some doc =>
    match validateEvent (backendEvent doc.value.value receivedAt) with
    | .invalid _ _ => none
    | .valid event =>
      -- what the schema alone does not say: duplicate names, the receipt, the topic, the size
      if doc.value.uniqueKeys && hasVersionOne doc.value.value &&
          !contains doc.value.value receiptKey && isOneLevel event.deviceId.text &&
          decide (payload.length ≤ maxPayloadBytes) then
        some (doc, event)
      else none

theorem contractEvent_eq_some {payload receivedAt : Bytes} {doc : Element Tree}
    {event : TelemetryEvent} (h : contractEvent payload receivedAt = some (doc, event)) :
    renderElement doc = payload ∧ ContractValid doc receivedAt event := by
  unfold contractEvent at h
  split at h
  · simp at h
  · next parsed hparsed =>
    obtain ⟨hrender, -⟩ := Json.parse_eq_some_iff.mp hparsed
    split at h
    · simp at h
    · next found hfound =>
      split at h
      · next hchecks =>
        obtain ⟨rfl, rfl⟩ := Prod.mk.inj (Option.some.inj h)
        simp only [Bool.and_eq_true, Bool.not_eq_true', decide_eq_true_eq] at hchecks
        obtain ⟨⟨⟨⟨hunique, hversion⟩, hreceipt⟩, hlevel⟩, hsize⟩ := hchecks
        refine ⟨hrender, hunique, ?_, ?_, hfound, hlevel, hrender ▸ hsize⟩
        · unfold hasVersionOne at hversion
          split at hversion
          · next n hn =>
            rw [Bool.and_eq_true, beq_iff_eq] at hversion
            exact ⟨n, hn, hversion⟩
          · simp at hversion
        · intro hmem
          rw [contains_iff.mpr hmem] at hreceipt
          simp at hreceipt
      · simp at h

theorem exists_of_any {α : Type} {p : α → Bool} {o : Option α} (h : o.any p = true) :
    ∃ a, o = some a ∧ p a = true := by
  cases o with
  | none => simp at h
  | some a => exact ⟨a, rfl, h⟩

/-- A contract-valid message within the gateway's own limits. -/
theorem contract_valid_accepted_sample :
    ∃ doc event, contractEvent samplePayload sampleReceivedAt = some (doc, event) ∧
      ∃ accepted, Telemetry.parse (topicOf event.deviceId.text) (renderElement doc)
        sampleReceivedAt = .ok accepted := by
  have hsome : (contractEvent samplePayload sampleReceivedAt).any (fun p =>
      decide (p.2.deviceId.text.length ≤ 128) && decide (p.2.bootId.text.length ≤ 128) &&
        decide (p.2.value = ⟨false, 3140000000000000000001, -20⟩)) = true := by
    decide +kernel
  obtain ⟨⟨doc, event⟩, hevent, hlimits⟩ := exists_of_any hsome
  simp only [Bool.and_eq_true, decide_eq_true_eq] at hlimits
  obtain ⟨⟨hdevice, hboot⟩, hvalue⟩ := hlimits
  have hfinite : RoundsFinite event.value := by
    have hbound : 100 ≤ doubleBound := by decide +kernel
    rw [hvalue, RoundsFinite, Decimal.abs_toRat]
    calc ((3140000000000000000001 : ℕ) : ℚ) * 10 ^ (-20 : ℤ) < 100 := by norm_num
      _ ≤ doubleBound := by exact_mod_cast hbound
  exact ⟨doc, event, hevent, (contract_valid_accepted_iff (contractEvent_eq_some hevent).2).mpr
    ⟨hdevice, hboot, hfinite⟩⟩

/-- 65 letters `é`, in 130 octets. -/
def longDeviceId : Bytes := (List.replicate 65 [0xC3, 0xA9]).flatten

def longPayload : Bytes :=
  ascii "\x7b\"schema_version\":1,\"device_id\":\"" ++ longDeviceId ++
    ascii "\",\"boot_id\":\"b\",\"sequence_number\":7,\"measured_at\":null," ++
    ascii "\"device_uptime_ms\":1,\"metric\":\"temperature\",\"value\":20,\"unit\":\"celsius\"," ++
    ascii "\"quality\":\x7b\"reading\":\"valid\",\"clock\":\"unknown\"\x7d\x7d"

theorem parse_longPayload : Telemetry.parse (topicOf longDeviceId) longPayload sampleReceivedAt =
    .error (.invalidArgument "invalid_topic") := by
  decide +kernel

/-- The gateway drops an event the contract allows. -/
theorem contract_valid_dropped : ¬ ∀ (doc : Element Tree) (receivedAt : Bytes)
    (event : TelemetryEvent), ContractValid doc receivedAt event →
      ∃ accepted, Telemetry.parse (topicOf event.deviceId.text) (renderElement doc) receivedAt =
        .ok accepted := by
  intro hall
  have hsome : (contractEvent longPayload sampleReceivedAt).any (fun p =>
      decide (p.2.deviceId.text = longDeviceId)) = true := by
    decide +kernel
  obtain ⟨⟨doc, event⟩, hevent, hdevice⟩ := exists_of_any hsome
  obtain ⟨hrender, hvalid⟩ := contractEvent_eq_some hevent
  obtain ⟨accepted, hparse⟩ := hall doc sampleReceivedAt event hvalid
  have hdevice : event.deviceId.text = longDeviceId := of_decide_eq_true hdevice
  rw [hdevice, hrender, parse_longPayload] at hparse
  simp at hparse

end EquipmentMonitoring.Exchange
