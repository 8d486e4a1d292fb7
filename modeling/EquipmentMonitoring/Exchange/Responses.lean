import EquipmentMonitoring.Backend.ItemSteps
import EquipmentMonitoring.Backend.Router
import EquipmentMonitoring.Exchange.Batches
import EquipmentMonitoring.Gateway.Decisions

/-!
# The Gateway Understands Committed Responses

The response to a claimed batch is followed from the results of the transaction to the decisions
of the gateway: what `json.dumps` writes is a text `parse_decisions` takes, and every result names
the event of the row at its place, as far as it names one.

## Layers

- `responseBody_parses`: the body is one value without duplicate keys, three containers high
- `itemValue`, `parseItem_itemValue`: one result, read back
- `Identified`, `ItemSteps.identified`: what the results say about the identities
- `response_understood`: the whole exchange
-/

namespace EquipmentMonitoring.Exchange

open EquipmentMonitoring.Json EquipmentMonitoring.Nlohmann EquipmentMonitoring.Telemetry
open EquipmentMonitoring.Forwarder EquipmentMonitoring.Store EquipmentMonitoring.Backend

/-! ## The Body -/

theorem textTree_accepted {text : Bytes} (h : Utf8.valid text = true) :
    (textTree text).accepted Nlohmann.dialect = true :=
  Bool.and_eq_true _ _ ▸ ⟨dumpLiteral_valid h, dumpLiteral_paired text⟩

theorem name_compactMember (name : String) (value : Tree) :
    (compactMember name value).name = ascii name :=
  dumpLiteral_decode (ascii name)

/-- Every counter is a finite double. -/
theorem counter_accepted (c : Counter) :
    (Tree.number (naturalLiteral c.value)).accepted Nlohmann.dialect = true := by
  have hle := c.le
  have hlt : c.value < doubleBound := hle.trans_lt (by decide +kernel)
  refine (finiteDouble_iff _).mpr ?_
  have hexp : (naturalLiteral c.value).exponent = 0 := rfl
  rw [naturalLiteral_coefficient, hexp, zpow_zero, mul_one]
  exact_mod_cast hlt

theorem readable_text {text : Bytes} (h : Utf8.valid text = true) : Readable 0 (textTree text) :=
  ⟨textTree_accepted h, rfl, Nat.le_refl 0⟩

theorem readable_nullable {α : Type} {write : α → Tree} {a? : Option α}
    (h : ∀ a, Readable 0 (write a)) : Readable 0 (nullableTree write a?) := by
  cases a? with
  | none => exact ⟨rfl, rfl, Nat.le_refl 0⟩
  | some a => exact h a

/-- Keys as written, all different, around readable values. -/
theorem readable_members {height : Nat} {ms : List (Member Tree)}
    (hnodup : (ms.map Member.name).Nodup)
    (hms : ∀ m ∈ ms, (∃ name : String, m.key = dumpLiteral (ascii name) ∧
      Utf8.valid (ascii name) = true) ∧ Readable height m.value) :
    Readable (height + 1) (Tree.ofMembers ms) where
  accepted := by
    rw [Tree.accepted_ofMembers, List.all_eq_true]
    intro m hm
    obtain ⟨⟨name, hkey, hvalid⟩, hvalue⟩ := hms m hm
    rw [Bool.and_eq_true, hkey]
    exact ⟨textTree_accepted hvalid, hvalue.accepted⟩
  unique := by
    rw [Tree.uniqueKeys_ofMembers, Bool.and_eq_true, decide_eq_true_iff, List.all_eq_true]
    exact ⟨hnodup, fun m hm => (hms m hm).2.unique⟩
  height := Tree.height_ofMembers fun m hm => (hms m hm).2.height

theorem outcome_valid (outcome : Outcome) : Utf8.valid outcome.text = true := by
  cases outcome <;> decide

theorem reason_valid (reason : ItemReason) : Utf8.valid reason.text = true := by
  cases reason <;> decide

theorem itemTree_readable (result : TelemetryResponseItem) : Readable 1 (itemTree result) := by
  refine readable_members ?_ fun m hm => ?_
  · simp only [itemMembers, List.map_append, List.map_cons, List.map_map, List.map_nil,
      name_compactMember, Function.comp_def]
    cases result.reason with
    | none => decide
    | some reason =>
      simp only [Option.toList_some, List.map_cons, List.map_nil]
      decide
  · have hid (id : Identifier) : Readable 0 (textTree id.text) := readable_text id.utf8
    simp only [itemMembers, List.mem_append, List.mem_cons, List.not_mem_nil, or_false,
      List.mem_map] at hm
    rcases hm with (rfl | rfl | rfl | rfl) | ⟨reason, -, rfl⟩
    · exact ⟨⟨_, rfl, by decide⟩, readable_nullable hid⟩
    · exact ⟨⟨_, rfl, by decide⟩, readable_nullable hid⟩
    · exact ⟨⟨_, rfl, by decide⟩,
        readable_nullable fun c => ⟨counter_accepted c, rfl, Nat.le_refl 0⟩⟩
    · exact ⟨⟨_, rfl, by decide⟩, readable_text (outcome_valid _)⟩
    · exact ⟨⟨_, rfl, by decide⟩, readable_text (reason_valid _)⟩

theorem responseTree_readable (response : TelemetryBatchResponse) :
    Readable 3 (responseTree response) := by
  have hresults : Readable 2
      (Tree.ofElements (response.results.map fun result => compact (itemTree result))) := by
    -- One level for an item, one for the list, one for the envelope.
    have hall : ∀ e ∈ response.results.map (fun result => compact (itemTree result)),
        Readable 1 e.value := by
      intro e he
      obtain ⟨result, -, rfl⟩ := List.mem_map.mp he
      exact itemTree_readable result
    refine ⟨?_, ?_, Tree.height_ofElements fun e he => (hall e he).height⟩
    · rw [Tree.accepted_ofElements, List.all_eq_true]
      exact fun e he => (hall e he).accepted
    · rw [Tree.uniqueKeys_ofElements, List.all_eq_true]
      exact fun e he => (hall e he).unique
  have hid : Readable 2 (textTree response.batchId.text) :=
    ⟨textTree_accepted (Identifier.utf8 _), rfl, Nat.zero_le 2⟩
  refine @readable_members 2 [_, _] ?_ ?_
  · simp only [List.map_cons, List.map_nil, name_compactMember]
    decide
  · simp only [List.forall_mem_cons, List.not_mem_nil, false_implies, implies_true, and_true]
    exact ⟨⟨⟨_, rfl, by decide⟩, hid⟩, ⟨_, rfl, by decide⟩, hresults⟩

/-- The gateway's parser reads the tree that was written. -/
theorem responseBody_parses [Nlohmann.Library] (response : TelemetryBatchResponse) :
    Nlohmann.parse (responseBody response) = some (compact (responseTree response)) := by
  refine Nlohmann.parse_eq_some_iff.mpr ⟨?_, (responseTree_readable response).accepted⟩
  have hhead : ∃ rest, responseBody response = 0x7B :: rest := ⟨_, rfl⟩
  obtain ⟨rest, hrest⟩ := hhead
  rw [hrest, skipBom_of_head (by decide), ← hrest]
  simp [renderElement, compact, Space.none, responseBody]

/-! ## Results Read Back -/

/-- The value of a nullable field. -/
def nullableValue {α : Type} (write : α → Value) : Option α → Value
  | some a => write a
  | none => .null

/-- What a result says as JSON. -/
def itemValue (result : TelemetryResponseItem) : Value :=
  .object ([(ascii "device_id", nullableValue (fun id => .string id.text) result.deviceId),
    (ascii "boot_id", nullableValue (fun id => .string id.text) result.bootId),
    (ascii "sequence_number",
      nullableValue (fun c => .number (naturalLiteral c.value)) result.sequenceNumber),
    (ascii "outcome", .string result.outcome.text)] ++
    result.reason.toList.map fun reason => (ascii "reason", .string reason.text))

theorem value_nullableTree {α : Type} {write : α → Tree} {write' : α → Value} {a? : Option α}
    (h : ∀ a, (write a).value = write' a) :
    (nullableTree write a?).value = nullableValue write' a? := by
  cases a? with
  | none => rfl
  | some a => exact h a

theorem value_textTree (text : Bytes) : (textTree text).value = .string text :=
  congrArg Value.string (dumpLiteral_decode text)

theorem value_itemTree (result : TelemetryResponseItem) :
    (itemTree result).value = itemValue result := by
  have hid (id? : Option Identifier) : (nullableTree (fun id => textTree id.text) id?).value =
      nullableValue (fun id => .string id.text) id? :=
    value_nullableTree fun id => value_textTree id.text
  have hcounter (c? : Option Counter) :
      (nullableTree (fun c => Tree.number (naturalLiteral c.value)) c?).value =
        nullableValue (fun c => .number (naturalLiteral c.value)) c? :=
    value_nullableTree fun c => rfl
  rw [itemTree, Tree.value_ofMembers, itemMembers, itemValue]
  simp only [List.map_append, List.map_cons, List.map_nil, name_compactMember, List.map_map,
    Function.comp_def]
  simp only [compactMember, hid, hcounter, value_textTree]

theorem value_responseTree (response : TelemetryBatchResponse) :
    (responseTree response).value = .object [(ascii "batch_id", .string response.batchId.text),
      (ascii "results", .array (response.results.map itemValue))] := by
  have hresults :
      (Tree.ofElements (response.results.map fun result => compact (itemTree result))).value =
        .array (response.results.map itemValue) := by
    rw [Tree.value_ofElements, List.map_map]
    exact congrArg Value.array (List.map_congr_left fun result _ => value_itemTree result)
  have hmembers : responseTree response = Tree.ofMembers
      [compactMember "batch_id" (textTree response.batchId.text), compactMember "results"
        (Tree.ofElements (response.results.map fun result => compact (itemTree result)))] := rfl
  rw [hmembers, Tree.value_ofMembers]
  simp only [List.map_cons, List.map_nil, name_compactMember]
  simp only [compactMember, value_textTree, hresults]

/-! ## Decisions -/

/-- What the result does not leave out is the identity of the event. -/
structure Identifies (result : TelemetryResponseItem) (event : Event) : Prop where
  deviceId : ∀ id ∈ result.deviceId, id.text = event.deviceId
  bootId : ∀ id ∈ result.bootId, id.text = event.bootId
  sequenceNumber : ∀ c ∈ result.sequenceNumber, (c.value : Int) = event.sequenceNumber

def deliveryAction : Outcome → DeliveryAction
  | .accepted => .accepted
  | .duplicate => .duplicate
  | .rejected => .rejected

/-- The decision a result calls for. -/
def decisionOf (result : TelemetryResponseItem) : DeliveryDecision :=
  ⟨deliveryAction result.outcome, (result.reason.map ItemReason.text).getD []⟩

section Item

variable {result : TelemetryResponseItem} {event : Event}

theorem get?_deviceId : (itemValue result).get? (ascii "device_id") =
    some (nullableValue (fun id => .string id.text) result.deviceId) := rfl

theorem get?_bootId : (itemValue result).get? (ascii "boot_id") =
    some (nullableValue (fun id => .string id.text) result.bootId) := rfl

theorem get?_sequenceNumber : (itemValue result).get? (ascii "sequence_number") =
    some (nullableValue (fun c => .number (naturalLiteral c.value)) result.sequenceNumber) := rfl

theorem get?_outcome : (itemValue result).get? (ascii "outcome") =
    some (.string result.outcome.text) := rfl

theorem get?_reason : (itemValue result).get? (ascii "reason") =
    result.reason.map fun reason => .string reason.text := by
  unfold itemValue
  cases result.reason with
  | none => rfl
  | some reason => rfl

theorem size_itemValue : size (itemValue result) = if result.reason.isSome then 5 else 4 := by
  unfold itemValue
  cases result.reason with
  | none => rfl
  | some reason => rfl

/-- A part of the identity is accepted: it is the event's, or null where that is allowed. -/
theorem nullable_matches {α : Type} {write : α → Value} {a? : Option α} {allowNull : Bool}
    {test : Value → Bool} (hnull : a? = none → allowNull = true) (h : ∀ a ∈ a?, test (write a) = true) :
    ((allowNull && isNull (nullableValue write a?)) || test (nullableValue write a?)) = true := by
  cases a? with
  | none => simp [hnull rfl, nullableValue, isNull]
  | some a => simp [nullableValue, h a rfl]

theorem isInteger_naturalLiteral (c : Counter) :
    isInteger (.number (naturalLiteral c.value)) c.value = true := by
  have hle := c.le
  simp only [maxCounter] at hle
  have hkind : numberKind (naturalLiteral c.value) = .unsigned c.value := by
    simp only [numberKind, naturalLiteral_isIntegral, naturalLiteral_negative,
      naturalLiteral_value]
    rw [if_pos trivial, if_neg (by simp), if_pos (by omega)]
  rw [isInteger, hkind, equalsInt64, if_pos (by omega)]
  exact beq_self_eq_true _

theorem identityMatches_itemValue (h : Identifies result event) {allowNull : Bool}
    (hnull : allowNull = false →
      result.deviceId.isSome = true ∧ result.bootId.isSome = true ∧
        result.sequenceNumber.isSome = true) :
    identityMatches (itemValue result) event allowNull = true := by
  -- A part is null only where the reader allows it.
  have hallow {α : Type} {a? : Option α} (ha : allowNull = false → a?.isSome = true)
      (hnone : a? = none) : allowNull = true := by
    cases allowNull with
    | true => rfl
    | false => simp [hnone] at ha
  have hdevice := @nullable_matches _ (fun id => .string id.text) _ allowNull
    (isText · event.deviceId) (hallow fun ha => (hnull ha).1)
    fun id hid => isText_iff.mpr (congrArg Value.string (h.deviceId id hid))
  have hboot := @nullable_matches _ (fun id => .string id.text) _ allowNull
    (isText · event.bootId) (hallow fun ha => (hnull ha).2.1)
    fun id hid => isText_iff.mpr (congrArg Value.string (h.bootId id hid))
  have hsequence := @nullable_matches _ (fun c : Counter => .number (naturalLiteral c.value)) _
    allowNull (isInteger · event.sequenceNumber) (hallow fun ha => (hnull ha).2.2)
    fun c hc => by rw [← h.sequenceNumber c hc]; exact isInteger_naturalLiteral c
  simp only [identityMatches, get?_deviceId, get?_bootId, get?_sequenceNumber]
  rw [Bool.and_eq_true, Bool.and_eq_true]
  exact ⟨⟨hdevice, hboot⟩, hsequence⟩

theorem permanent_text (reason : ItemReason) : permanentReason reason.text = true := by
  cases reason <;> decide

theorem malformed_text {reason : ItemReason} (h : (reason.text == ascii "malformed_value") = false) :
    reason ≠ .malformedValue := by
  rintro rfl
  exact absurd h (by decide)

/-- A result is read back as the decision it calls for. -/
theorem parseItem_itemValue (h : Identifies result event) :
    parseItem (itemValue result) event = .ok (decisionOf result) := by
  have hobject : isObject (itemValue result) = true := rfl
  have hsome := result.reason_iff
  have hcontains : contains (itemValue result) (ascii "reason") = result.reason.isSome := by
    rw [contains, get?_reason, Option.isSome_map]
  -- A confirmation has no reason, hence its whole identity.
  have hconfirm (houtcome : result.outcome ≠ .rejected) : result.reason = none := by
    rw [← Option.not_isSome_iff_eq_none]
    exact fun hreason => houtcome (hsome.mp hreason)
  have hcomplete (houtcome : result.outcome ≠ .rejected) :
      identityMatches (itemValue result) event false = true :=
    identityMatches_itemValue h fun _ => result.complete (by simp [hconfirm houtcome])
  unfold parseItem
  rw [hobject, get?_outcome]
  cases houtcome : result.outcome with
  | accepted | duplicate =>
    have hne : result.outcome ≠ .rejected := by simp [houtcome]
    have hreason := hconfirm hne
    simp only [Outcome.text, get?_reason, size_itemValue, confirmationSize, hcontains, hreason,
      hcomplete hne]
    simp [decisionOf, houtcome, deliveryAction, hreason, show ascii "duplicate" ≠ ascii "accepted"
      by decide]
  | rejected =>
    obtain ⟨reason, hreason⟩ := Option.isSome_iff_exists.mp (hsome.mpr houtcome)
    have hidentity : identityMatches (itemValue result) event
        (reason.text == ascii "malformed_value") = true :=
      identityMatches_itemValue h fun hallow =>
        result.complete (by simpa [hreason] using malformed_text hallow)
    have haccepted : ascii "rejected" ≠ ascii "accepted" := by decide
    have hduplicate : ascii "rejected" ≠ ascii "duplicate" := by decide
    simp only [Outcome.text, get?_reason, size_itemValue, hreason, Option.map_some, hidentity,
      permanent_text, haccepted, hduplicate]
    simp [decisionOf, houtcome, deliveryAction, hreason]

end Item

/-! ## Identities -/

/-- What the result does not leave out was read from the payload. -/
structure ReadFrom (payload : Value) (result : TelemetryResponseItem) : Prop where
  deviceId : ∀ id ∈ result.deviceId, Reads payload "device_id" readIdentifier id
  bootId : ∀ id ∈ result.bootId, Reads payload "boot_id" readIdentifier id
  sequenceNumber : ∀ c ∈ result.sequenceNumber, Reads payload "sequence_number" readCounter c

theorem reads_of_readIdentity {α : Type} {payload : Value} {name : String}
    {read : Value → Except ErrorCode α} {a : α} (h : a ∈ readIdentity payload name read) :
    Reads payload name read a := by
  simp only [readIdentity, Option.mem_def, Option.bind_eq_some_iff] at h
  obtain ⟨v, hv, hread⟩ := h
  refine ⟨v, hv, ?_⟩
  cases hv : read v with
  | ok b => simpa [hv, Except.toOption] using hread
  | error code => simp [hv, Except.toOption] at hread

theorem readFrom_confirmed {payload : Value} {item : TelemetryEvent} (h : EventFields payload item)
    {outcome : Outcome} (ho : outcome ≠ .rejected) :
    ReadFrom payload (.confirmed item.identity outcome ho) := by
  refine ⟨?_, ?_, ?_⟩ <;> rintro _ ⟨⟩
  exacts [h.deviceId, h.bootId, h.sequenceNumber]

theorem readFrom_rejected {payload : Value} {item : TelemetryEvent} (h : EventFields payload item)
    (reason : ItemReason) : ReadFrom payload (.rejected item.identity reason) := by
  refine ⟨?_, ?_, ?_⟩ <;> rintro _ ⟨⟩
  exacts [h.deviceId, h.bootId, h.sequenceNumber]

/-- Whichever path an item takes, its result names what the payload names. -/
theorem readFrom_of_step {alerting : Alerting} {i : Ingestion} {index : Nat} {db db' : Db}
    {payload : Value} {result : TelemetryResponseItem}
    (h : ItemStep alerting i index db (validateTelemetryItem payload) result db') :
    ReadFrom payload result := by
  cases hvalid : validateEvent payload with
  | valid item =>
    have hfields := validateEvent_eq_valid.mp hvalid
    rw [validateTelemetryItem, hvalid] at h
    cases h with
    -- every outcome of a valid event carries the identity that was read
    | refused | dataError | conflict => exact readFrom_rejected hfields _
    | duplicate | accepted => exact readFrom_confirmed hfields (by decide)
  | invalid errors hne =>
    rw [validateTelemetryItem, hvalid] at h
    cases h with
    | response =>
      exact ⟨fun _ => reads_of_readIdentity, fun _ => reads_of_readIdentity,
        fun _ => reads_of_readIdentity⟩

theorem readFrom_of_steps {alerting : Alerting} {i : Ingestion} {index : Nat} {db db' : Db}
    {payloads : List Value} {results : List TelemetryResponseItem}
    (h : ItemSteps alerting i index db (payloads.map validateTelemetryItem) results db') :
    List.Forall₂ ReadFrom payloads results := by
  induction payloads generalizing index db results with
  | nil => cases h; exact .nil
  | cons payload rest ih =>
    cases h with
    | cons head tail => exact .cons (readFrom_of_step head) (ih tail)

/-- The gateway and the backend read the same identity from one payload. -/
theorem identifies_of_readFrom [Nlohmann.Library] {row : QueuedEvent} {payload : Value}
    {result : TelemetryResponseItem} (hcarries : Carries row payload)
    (h : ReadFrom payload result) : Identifies result row.event := by
  obtain ⟨src, rfl⟩ := hcarries
  -- What was forwarded still has the members of the stored payload.
  have hget {key : Bytes} (hschema : key ≠ schemaKey) (hreceipt : key ≠ receiptKey) :=
    forwarded_get? src row.event.gatewayReceivedAt hschema hreceipt
  obtain ⟨d, hd, hdevice⟩ := src.fields.deviceId
  obtain ⟨b, hb, hboot⟩ := src.fields.bootId
  obtain ⟨s, hs, hsequence⟩ := src.fields.sequenceNumber
  obtain ⟨rfl, -⟩ := identifier_eq_ok.mp hdevice
  obtain ⟨rfl, -⟩ := identifier_eq_ok.mp hboot
  obtain ⟨n, rfl, -, hn, -⟩ := counter_eq_ok.mp hsequence
  refine ⟨fun id hid => ?_, fun id hid => ?_, fun c hc => ?_⟩
  · obtain ⟨v, hv, hread⟩ := h.deviceId id hid
    rw [hget (by decide) (by decide), hd] at hv
    obtain rfl := Option.some.inj hv
    exact (Value.string.inj (readIdentifier_eq_ok hread)).symm
  · obtain ⟨v, hv, hread⟩ := h.bootId id hid
    rw [hget (by decide) (by decide), hb] at hv
    obtain rfl := Option.some.inj hv
    exact (Value.string.inj (readIdentifier_eq_ok hread)).symm
  · obtain ⟨v, hv, hread⟩ := h.sequenceNumber c hc
    rw [hget (by decide) (by decide), hs] at hv
    obtain rfl := Option.some.inj hv
    obtain ⟨_, ⟨⟩, -, hc⟩ := readCounter_eq_ok hread
    exact hc.symm.trans hn

theorem identifies_of_forall₂ [Nlohmann.Library] {claimed : List QueuedEvent}
    {payloads : List Value} {results : List TelemetryResponseItem}
    (hcarries : List.Forall₂ Carries claimed payloads)
    (hread : List.Forall₂ ReadFrom payloads results) :
    List.Forall₂ (fun row result => Identifies result row.event) claimed results := by
  induction hcarries generalizing results with
  | nil => cases hread; exact .nil
  | cons hrow _ ih =>
    cases hread with
    | cons hfirst hrest => exact .cons (identifies_of_readFrom hrow hfirst) (ih hrest)

/-! ## Responses -/

theorem parseItems_itemValue {claimed : List QueuedEvent} {results : List TelemetryResponseItem}
    (h : List.Forall₂ (fun row result => Identifies result row.event) claimed results) :
    (claimed.zip (results.map itemValue)).mapM (fun p => parseItem p.2 p.1.event) =
      .ok (results.map decisionOf) := by
  rw [mapM_eq_ok]
  induction h with
  | nil => exact .nil
  | cons hrow _ ih => exact .cons (parseItem_itemValue hrow) ih

/-- A response whose results identify the claimed events, place by place, is understood. -/
theorem parseDecisions_responseBody [Nlohmann.Library] {claimed : List QueuedEvent}
    {response : TelemetryBatchResponse} (hid : response.batchId.text.length ≤ 128)
    (h : List.Forall₂ (fun row result => Identifies result row.event) claimed response.results) :
    parseDecisions (responseBody response) claimed = .ok (response.results.map decisionOf) := by
  have hparse := responseBody_parses response
  have hreadable := responseTree_readable response
  obtain ⟨keys, hkeys⟩ : ∃ keys, trackAll 3 [] ((responseTree response).events 0) = .ok keys :=
    track_ok_iff.mpr ⟨(within_height (responseTree response) 0).mono (by simpa using hreadable.height),
      hreadable.unique⟩
  have hreports : (Nlohmann.read (responseBody response)).reports =
      (responseTree response).events 0 := read_reports hparse
  have hresult : (Nlohmann.read (responseBody response)).result =
      some (compact (responseTree response)) := hparse
  -- The envelope has its two keys, a usable id and one result for each claimed row.
  have henvelope : envelopeResults (responseTree response).value claimed.length =
      .ok (response.results.map itemValue) := by
    rw [value_responseTree]
    have hlength := h.length_eq
    have hbatch : (Value.object [(ascii "batch_id", .string response.batchId.text),
        (ascii "results", .array (response.results.map itemValue))]).get? (ascii "batch_id") =
        some (.string response.batchId.text) := rfl
    have hresults : (Value.object [(ascii "batch_id", .string response.batchId.text),
        (ascii "results", .array (response.results.map itemValue))]).get? (ascii "results") =
        some (.array (response.results.map itemValue)) := rfl
    simp only [envelopeResults, hbatch, hresults]
    rw [if_neg]
    simp [isObject, size, Value.members, response.batchId.ne_nil, hid, hlength]
  simp only [parseDecisions, except_bind_eq_ok, except_mapError_eq_ok]
  refine ⟨keys, by rw [hreports]; exact hkeys, ?_⟩
  rw [hresult]
  exact except_bind_eq_ok.mpr ⟨_, henvelope, parseItems_itemValue h⟩

/-- What the backend commits for a batch of accepted rows identifies them, place by place. -/
theorem identifies_of_commit [Nlohmann.Library] {python : Interpreter} {pg : NumericColumn}
    {clock : Clock} {db db' : Db} {gatewayId batchId : Identifier} {claimed : List QueuedEvent}
    {body : Bytes} {batch : ValidatedTelemetryBatch} {response : TelemetryBatchResponse}
    (haccepted : ∀ row ∈ claimed, Accepted row) (hbody : batchJson claimed = .ok body)
    (hbatch : parseTelemetryBatch python body = .ok batch)
    (hcommit : ingestBatch pg clock db gatewayId batch batchId = .ok (response, db')) :
    response.batchId = batchId ∧
      List.Forall₂ (fun row result => Identifies result row.event) claimed response.results := by
  obtain ⟨payloads, hcarries, hitems⟩ := items_of_claimed haccepted hbody hbatch
  obtain ⟨-, hid, hsteps⟩ := ingestBatch_eq_ok hcommit
  rw [hitems] at hsteps
  exact ⟨hid, identifies_of_forall₂ hcarries (readFrom_of_steps hsteps)⟩

/-- Whatever the backend commits for a batch of accepted rows, the gateway decides as it says. -/
theorem response_understood [Nlohmann.Library] (python : Interpreter) (pg : NumericColumn)
    (clock : Clock) (db db' : Db) (gatewayId : Identifier) (bits : Nat) (claimed : List QueuedEvent)
    (body : Bytes) (batch : ValidatedTelemetryBatch) (response : TelemetryBatchResponse)
    (haccepted : ∀ row ∈ claimed, ∃ topic payload receivedAt,
      Telemetry.parse topic payload receivedAt = .ok row.event)
    (hbody : batchJson claimed = .ok body) (hbatch : parseTelemetryBatch python body = .ok batch)
    (hcommit : ingestBatch pg clock db gatewayId batch (routeBatchId bits) = .ok (response, db')) :
    parseDecisions (responseBody response) claimed = .ok (response.results.map decisionOf) := by
  obtain ⟨hid, hidentifies⟩ := identifies_of_commit haccepted hbody hbatch hcommit
  refine parseDecisions_responseBody ?_ hidentifies
  rw [hid, routeBatchId, length_uuidText]
  decide

/-! ## An Exchange -/

theorem le_sampleLimit : 64 ≤ 1000 := by decide

def samplePython : Interpreter := ⟨1000, le_sampleLimit⟩

def sampleClaimed : List QueuedEvent := [⟨sampleEvent, .inFlight, 1⟩]

def sampleBody : Bytes :=
  ascii "\x7b\"schema_version\":1,\"events\":[" ++ sampleForwarded ++ ascii "]\x7d"

theorem batchJson_sample : batchJson sampleClaimed = .ok sampleBody := by
  have hmap : sampleClaimed.mapM (fun row => backendEventJson row.event) = .ok [sampleForwarded] :=
    mapM_eq_ok.mpr (.cons backendEventJson_sample .nil)
  simp [batchJson, hmap, bind, Except.bind, pure, Except.pure, sampleBody]

/-- The results committed for a batch, none if it is refused. -/
def sampleResults (parsed : Except TelemetryBatchError ValidatedTelemetryBatch) :
    List TelemetryResponseItem :=
  match parsed with
  | .error _ => []
  | .ok batch =>
    match ingestBatch exactColumn sampleClock sampleDb sampleGateway batch (routeBatchId 0) with
    | .error _ => []
    | .ok (response, _) => response.results

theorem exists_committed {parsed : Except TelemetryBatchError ValidatedTelemetryBatch}
    (h : sampleResults parsed ≠ []) :
    ∃ batch response db', parsed = .ok batch ∧
      ingestBatch exactColumn sampleClock sampleDb sampleGateway batch (routeBatchId 0) =
        .ok (response, db') ∧ response.results = sampleResults parsed := by
  cases parsed with
  | error e => exact absurd rfl h
  | ok batch =>
    cases hcommit : ingestBatch exactColumn sampleClock sampleDb sampleGateway batch
      (routeBatchId 0) with
    | error e => simp [sampleResults, hcommit] at h
    | ok committed => exact ⟨batch, committed.1, committed.2, rfl, hcommit, by
        simp [sampleResults, hcommit]⟩

theorem sampleResults_accepted :
    (sampleResults (parseTelemetryBatch samplePython sampleBody)).map decisionOf =
      [⟨.accepted, []⟩] := by
  decide +kernel

theorem response_understood_sample : ∃ response : TelemetryBatchResponse,
    response.results = sampleResults (parseTelemetryBatch samplePython sampleBody) ∧
      parseDecisions (responseBody response) sampleClaimed = .ok [⟨.accepted, []⟩] := by
  have haccepted := sampleResults_accepted
  have hne : sampleResults (parseTelemetryBatch samplePython sampleBody) ≠ [] := fun h => by
    rw [h] at haccepted
    exact absurd haccepted (by simp)
  obtain ⟨batch, response, db', hbatch, hcommit, hresults⟩ := exists_committed hne
  refine ⟨response, hresults, ?_⟩
  rw [← haccepted, ← hresults]
  refine response_understood samplePython exactColumn sampleClock sampleDb db' sampleGateway 0
    sampleClaimed sampleBody batch response (fun row hrow => ?_) batchJson_sample hbatch hcommit
  obtain rfl := List.mem_singleton.mp hrow
  exact ⟨_, _, _, parse_sample⟩

end EquipmentMonitoring.Exchange
