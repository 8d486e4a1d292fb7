import EquipmentMonitoring.Exchange.Responses
import EquipmentMonitoring.Simulator.SendBatch

/-!
# What the Simulator Makes of Committed Responses

The contract lets a malformed event come back without parts of its identity, to be recognised by its
place. The gateway reads such a result; the simulator compares the null it finds there with the
value it has sent, and raises for the whole batch unless that was null too.

## Layers

- `loads_eq`: the simulator and the backend read one fixture as the same value
- `Echoes`: a result repeats exactly the parts of the identity that are valid by themselves
- `loads_responseBody`: the reply loads as what was committed
- `classifyItem_itemValue`: one result, classified

## Key Results

- `reply_classified_iff`: the batches whose replies are understood
- `malformed_identity_raises`: a batch whose reply the gateway's reader takes and this one does not
-/

namespace EquipmentMonitoring.Exchange

open EquipmentMonitoring.Json EquipmentMonitoring.Backend
open EquipmentMonitoring.Forwarder (parseDecisions)
open EquipmentMonitoring.Store (DeliveryDecision)
open EquipmentMonitoring.Simulator (get lookup isDict typeOf equal numbersEqual confirmField
  itemOutcome classifyItem classifyResponse postBatch fixtureEvents identityFields)

/-! ## Dictionaries -/

/-- Among distinct keys, the last one found is the first. -/
theorem lookup_of_nodup {ms : List (Bytes × Value)} (h : (ms.map Prod.fst).Nodup) (key : Bytes) :
    lookup ms key = (ms.find? fun m => m.1 == key).map Prod.snd := by
  rw [lookup]
  congr 1
  induction ms with
  | nil => rfl
  | cons m rest ih =>
    obtain ⟨hfresh, hrest⟩ := List.nodup_cons.mp h
    rw [List.reverse_cons, List.find?_append, ih hrest, List.find?_singleton, List.find?_cons]
    by_cases hkey : m.1 = key
    · -- the key of the first member is that of no other
      have hnone : rest.find? (fun m => m.1 == key) = none := by
        rw [List.find?_eq_none]
        intro m' hm' heq
        rw [beq_iff_eq, ← hkey] at heq
        exact hfresh (heq ▸ List.mem_map_of_mem hm')
      rw [hnone]
      simp [hkey]
    · rw [beq_false_of_ne hkey]
      simp

theorem get_of_nodup {v : Value} (h : (v.members.map Prod.fst).Nodup) (key : Bytes) :
    get v key = v.get? key := lookup_of_nodup h key

/-! ## One Fixture, Read Twice -/

theorem loads_eq_some {python : Interpreter} {body : Bytes} {v : Value}
    (h : Simulator.loads python body = some v) :
    ∃ doc : Element Tree, renderElement doc = body ∧ doc.value.value = v := by
  unfold Simulator.loads at h
  split at h
  · split at h
    · next doc hdoc =>
      split at h
      · exact ⟨doc, (parse_eq_some_iff.mp hdoc).1, Option.some.inj h⟩
      · simp at h
    · simp at h
  · simp at h

/-- What both load, they load as the same value, in which no key is repeated. -/
theorem loads_eq {python python' : Interpreter} {body : Bytes} {v w : Value}
    (h : Simulator.loads python body = some v) (h' : Backend.loads python' body = some w) :
    v = w ∧ v.Unrepeated := by
  obtain ⟨doc, rfl, rfl⟩ := loads_eq_some h
  obtain ⟨-, hunique, rfl⟩ := loads_render h'
  exact ⟨rfl, doc.value, rfl, hunique⟩

theorem fixtureEvents_eq_some {python : Interpreter} {body : Bytes} {events : List Value}
    (h : fixtureEvents python body = some events) :
    ∃ payload, Simulator.loads python body = some payload ∧
      get payload (ascii "events") = some (.array events) ∧ ∀ event ∈ events, isDict event = true := by
  unfold fixtureEvents at h
  split at h
  · simp at h
  · next payload hloads =>
    split at h
    · next items hitems =>
      split at h
      · next hshape =>
        obtain rfl := Option.some.inj h
        exact ⟨payload, hloads, hitems, List.all_eq_true.mp hshape.2⟩
      · simp at h
    · simp at h

/-- The backend validates the events that the simulator holds. -/
theorem items_of_fixture {python python' : Interpreter} {body : Bytes} {events : List Value}
    {batch : ValidatedTelemetryBatch} (h : fixtureEvents python body = some events)
    (hbatch : parseTelemetryBatch python' body = .ok batch) :
    batch.items = events.map validateTelemetryItem ∧
      ∀ event ∈ events, isDict event = true ∧ event.Unrepeated := by
  obtain ⟨payload, hloads, hget, hdicts⟩ := fixtureEvents_eq_some h
  obtain ⟨payload', events', hloads', hget', hitems⟩ := parseTelemetryBatch_eq_ok hbatch
  obtain ⟨rfl, hunrepeated⟩ := loads_eq hloads hloads'
  rw [get_of_nodup hunrepeated.nodup, hget'] at hget
  obtain rfl := Value.array.inj (Option.some.inj hget)
  have hevents := hunrepeated.get? hget'
  exact ⟨hitems, fun event hevent => ⟨hdicts event hevent, hevents.item hevent⟩⟩

/-! ## Results -/

/-- A result repeats the parts of an identity that are valid by themselves. -/
structure Echoes (payload : Value) (result : TelemetryResponseItem) : Prop where
  deviceId : result.deviceId = readIdentity payload "device_id" readIdentifier
  bootId : result.bootId = readIdentity payload "boot_id" readIdentifier
  sequenceNumber : result.sequenceNumber = readIdentity payload "sequence_number" readCounter

theorem readIdentity_of_reads {α : Type} {payload : Value} {name : String}
    {read : Value → Except ErrorCode α} {a : α} (h : Reads payload name read a) :
    readIdentity payload name read = some a := by
  obtain ⟨v, hv, hread⟩ := h
  rw [readIdentity, hv, Option.bind_some, hread]
  rfl

/-- The identity of a valid event is complete. -/
theorem echoes_of_fields {payload : Value} {item : TelemetryEvent} (h : EventFields payload item)
    {result : TelemetryResponseItem} (hdevice : result.deviceId = some item.deviceId)
    (hboot : result.bootId = some item.bootId)
    (hsequence : result.sequenceNumber = some item.sequenceNumber) : Echoes payload result :=
  ⟨hdevice.trans (readIdentity_of_reads h.deviceId).symm,
    hboot.trans (readIdentity_of_reads h.bootId).symm,
    hsequence.trans (readIdentity_of_reads h.sequenceNumber).symm⟩

theorem echoes_of_step {alerting : Alerting} {i : Ingestion} {index : Nat} {db db' : Db}
    {payload : Value} {result : TelemetryResponseItem}
    (h : ItemStep alerting i index db (validateTelemetryItem payload) result db') :
    Echoes payload result := by
  cases hvalid : validateEvent payload with
  | valid item =>
    have hfields := validateEvent_eq_valid.mp hvalid
    rw [validateTelemetryItem, hvalid] at h
    cases h with
    -- whatever became of a valid event, its result repeats the identity that was read
    | refused | dataError | conflict | duplicate | accepted =>
      exact echoes_of_fields hfields rfl rfl rfl
  | invalid errors hne =>
    rw [validateTelemetryItem, hvalid] at h
    cases h with
    | response => exact ⟨rfl, rfl, rfl⟩

theorem echoes_of_steps {alerting : Alerting} {i : Ingestion} {index : Nat} {db db' : Db}
    {payloads : List Value} {results : List TelemetryResponseItem}
    (h : ItemSteps alerting i index db (payloads.map validateTelemetryItem) results db') :
    List.Forall₂ Echoes payloads results := by
  induction payloads generalizing index db results with
  | nil => cases h; exact .nil
  | cons payload rest ih =>
    cases h with
    | cons head tail => exact .cons (echoes_of_step head) (ih tail)

/-! ## The Reply -/

theorem nullable_takes {α : Type} {write : α → Tree} {a? : Option α}
    (h : ∀ a, (write a).accepted Simulator.dialect = true) :
    (nullableTree write a?).accepted Simulator.dialect = true := by
  cases a? with
  | none => rfl
  | some a => exact h a

theorem textTree_takes (text : Bytes) : (textTree text).accepted Simulator.dialect = true := rfl

/-- A counter has far fewer digits than an `int` may have. -/
theorem counter_takes (c : Counter) :
    (Tree.number (naturalLiteral c.value)).accepted Simulator.dialect = true := by
  have hlength : (decimal c.value).length ≤ 19 :=
    (length_decimal (by decide) (c.le.trans_lt (by decide)))
  have hmax : (naturalLiteral c.value).int.text.length ≤ maxStrDigits :=
    hlength.trans (by decide)
  simp only [Tree.accepted, Simulator.dialect, Bool.or_eq_true, decide_eq_true_eq]
  exact .inr hmax

theorem itemTree_takes (result : TelemetryResponseItem) :
    (itemTree result).accepted Simulator.dialect = true := by
  have hid (id? : Option Identifier) :
      (nullableTree (fun id => textTree id.text) id?).accepted Simulator.dialect = true :=
    nullable_takes fun id => textTree_takes id.text
  have hcounter (c? : Option Counter) : (nullableTree (fun c => Tree.number (naturalLiteral c.value))
      c?).accepted Simulator.dialect = true := nullable_takes counter_takes
  rw [itemTree, Tree.accepted_ofMembers, List.all_eq_true]
  intro m hm
  rw [Bool.and_eq_true]
  refine ⟨rfl, ?_⟩
  simp only [itemMembers, List.mem_append, List.mem_cons, List.not_mem_nil, or_false,
    List.mem_map] at hm
  -- the four members every result has, then the reason of a rejection
  rcases hm with (rfl | rfl | rfl | rfl) | ⟨reason, -, rfl⟩
  · exact hid _
  · exact hid _
  · exact hcounter _
  · exact textTree_takes _
  · exact textTree_takes _

theorem responseTree_takes (response : TelemetryBatchResponse) :
    (responseTree response).accepted Simulator.dialect = true := by
  have hresults : (Tree.ofElements (response.results.map fun result =>
      compact (itemTree result))).accepted Simulator.dialect = true := by
    rw [Tree.accepted_ofElements, List.all_eq_true]
    intro e he
    obtain ⟨result, -, rfl⟩ := List.mem_map.mp he
    exact itemTree_takes result
  rw [responseTree, Tree.accepted_object, List.all_eq_true]
  intro m hm
  rw [Bool.and_eq_true]
  refine ⟨rfl, ?_⟩
  rcases List.mem_pair.mp hm with rfl | rfl
  · exact textTree_takes _
  · exact hresults

/-- The reply loads as what was committed. -/
theorem loads_responseBody (python : Interpreter) (response : TelemetryBatchResponse) :
    Simulator.loads python (responseBody response) = some (responseTree response).value := by
  have hutf8 : Utf8.valid (responseBody response) = true :=
    (responseTree response).valid_render
      (Forwarder.accepted_utf8 (responseTree_readable response).accepted)
  have hrender : renderElement (compact (responseTree response)) = responseBody response := by
    simp [renderElement, compact, Space.none, responseBody]
  have hparse : Json.parse Simulator.dialect (responseBody response) =
      some (compact (responseTree response)) :=
    parse_eq_some_iff.mpr ⟨hrender, responseTree_takes response⟩
  -- Three levels fit under any recursion limit the interpreter runs with.
  have hheight : (compact (responseTree response)).value.height ≤ python.recursionLimit :=
    (responseTree_readable response).height.trans
      ((by decide : 3 ≤ 64).trans python.le_recursionLimit)
  rw [Simulator.loads, if_pos hutf8, hparse]
  simp only [if_pos hheight]
  rfl

/-! ## One Result, Classified -/

/-- The outcome, and the reason of a rejection. -/
def outcomeText (result : TelemetryResponseItem) : Bytes :=
  match result.reason with
  | none => result.outcome.text
  | some reason => result.outcome.text ++ ascii ":" ++ reason.text

theorem outcome_known (outcome : Outcome) :
    Simulator.itemOutcomes.contains outcome.text = true := by
  cases outcome <;> decide

theorem reason_ne_nil (reason : ItemReason) : reason.text ≠ [] := by
  cases reason <;> decide

/-- The members of a result have names of their own. -/
theorem get_itemValue (result : TelemetryResponseItem) (key : Bytes) :
    get (itemValue result) key = (itemValue result).get? key := by
  apply get_of_nodup
  unfold itemValue
  cases result.reason with
  | none =>
    simp only [Value.members, List.map_append, List.map_cons, List.map_nil, Option.toList_none]
    decide
  | some reason =>
    simp only [Value.members, List.map_append, List.map_cons, List.map_nil, Option.toList_some]
    decide

theorem itemOutcome_itemValue (result : TelemetryResponseItem) :
    itemOutcome (itemValue result) = .ok (outcomeText result) := by
  have hrejected : result.outcome.text = ascii "rejected" ↔ result.reason.isSome = true := by
    rw [result.reason_iff]
    cases result.outcome <;> decide
  unfold itemOutcome
  rw [get_itemValue, get_itemValue, get?_outcome, get?_reason, outcomeText]
  simp only [outcome_known, Bool.true_eq_false, if_false, hrejected]
  cases result.reason with
  | none => rfl
  | some reason => simp [reason_ne_nil]

section Classify

variable {floatEq : Number → Number → Bool}

variable (floatEq) in
/-- What passes for the value that was sent. -/
def Same (value own : Value) : Prop := equal floatEq value own = true ∧ typeOf value = typeOf own

theorem same_null {v : Value} : Same floatEq .null v ↔ v = .null := by
  constructor
  · rintro ⟨-, htype⟩
    cases v with
    | null => rfl
    | number n =>
      simp only [typeOf] at htype
      split at htype <;> simp at htype
    | _ => simp [typeOf] at htype
  · rintro rfl
    exact ⟨by rw [equal], rfl⟩

theorem same_identifier {v : Value} {id : Identifier} (h : readIdentifier v = .ok id) :
    Same floatEq (.string id.text) v := by
  rw [readIdentifier_eq_ok h]
  exact ⟨by rw [equal, beq_self_eq_true], rfl⟩

/-- An `int` in range comes back as an `int` of the same value. -/
theorem same_counter {v : Value} {c : Counter} (h : readCounter v = .ok c) :
    Same floatEq (.number (naturalLiteral c.value)) v := by
  obtain ⟨n, rfl, hintegral, hvalue⟩ := readCounter_eq_ok h
  have hliteral : (naturalLiteral c.value).intValue = c.value := by
    rw [Number.intValue, naturalLiteral_negative, naturalLiteral_value]
    rfl
  constructor
  · simp [equal, Simulator.numeral?, numbersEqual, naturalLiteral_isIntegral, hintegral, hliteral,
      hvalue]
  · simp [typeOf, naturalLiteral_isIntegral, hintegral]

/-- A part of an identity that comes back as it was sent: it is valid by itself, null or missing. -/
def Returned {α : Type} (event : Value) (name : String) (read : Value → Except ErrorCode α) : Prop :=
  ∀ v, event.get? (ascii name) = some v → v = .null ∨ ∃ a, read v = .ok a

/-- Every part of the identity comes back as it was sent. -/
structure Correlated (event : Value) : Prop where
  deviceId : Returned event "device_id" readIdentifier
  bootId : Returned event "boot_id" readIdentifier
  sequenceNumber : Returned event "sequence_number" readCounter

theorem same_echo {α : Type} {event : Value} {name : String} {read : Value → Except ErrorCode α}
    {write : α → Value} (hwrite : ∀ v a, read v = .ok a → Same floatEq (write a) v) :
    Same floatEq (nullableValue write (readIdentity event name read))
      ((event.get? (ascii name)).getD .null) ↔ Returned event name read := by
  rw [readIdentity, Returned]
  cases event.get? (ascii name) with
  | none => simp [nullableValue, same_null]
  | some v =>
    simp only [Option.bind_some, Option.getD_some, Option.some.injEq, forall_eq']
    cases hread : read v with
    | ok a =>
      simp only [Except.toOption, nullableValue]
      -- what could be read is written back as it was
      exact iff_of_true (hwrite v a hread) (.inr ⟨a, rfl⟩)
    | error code => simp [Except.toOption, nullableValue, same_null]

theorem confirmField_eq_ok {source result value : Value} {field : Bytes}
    (hvalue : get result field = some value) (hdict : isDict source = true) :
    confirmField floatEq source result field = .ok () ↔
      Same floatEq value ((get source field).getD .null) := by
  rw [confirmField, hvalue, Same]
  simp only [hdict, Bool.true_eq_false, if_false]
  split
  · next hdiffers =>
    constructor
    · intro h
      simp at h
    · -- the code raises on either difference, so agreement needs both
      rintro ⟨hequal, htype⟩
      rcases hdiffers with hunequal | hother
      · rw [hequal] at hunequal
        simp at hunequal
      · exact absurd htype hother
  · next hsame =>
    simp only [not_or, Bool.not_eq_false, not_not] at hsame
    exact iff_of_true rfl hsame

/-- A committed result repeats one part of an identity. -/
theorem confirmField_echo {α : Type} {event : Value} {result : TelemetryResponseItem} {name : String}
    {read : Value → Except ErrorCode α} {write : α → Value} (hdict : isDict event = true)
    (hunrepeated : event.Unrepeated)
    (hresult : (itemValue result).get? (ascii name) =
      some (nullableValue write (readIdentity event name read)))
    (hwrite : ∀ v a, read v = .ok a → Same floatEq (write a) v) :
    confirmField floatEq event (itemValue result) (ascii name) = .ok () ↔
      Returned event name read := by
  rw [confirmField_eq_ok ((get_itemValue result _).trans hresult) hdict,
    get_of_nodup hunrepeated.nodup]
  exact same_echo hwrite

/-- A committed result confirms an event exactly if the identity comes back as it was sent. -/
theorem classifyItem_itemValue {event : Value} {result : TelemetryResponseItem} {text : Bytes}
    (hdict : isDict event = true) (hunrepeated : event.Unrepeated) (h : Echoes event result) :
    classifyItem floatEq event (itemValue result) = .ok text ↔
      Correlated event ∧ outcomeText result = text := by
  -- Each identity field passes exactly when the backend could read the one that was sent.
  have hdevice : confirmField floatEq event (itemValue result) (ascii "device_id") = .ok () ↔
      Returned event "device_id" readIdentifier :=
    confirmField_echo hdict hunrepeated (h.deviceId ▸ get?_deviceId)
      fun v id hread => same_identifier hread
  have hboot : confirmField floatEq event (itemValue result) (ascii "boot_id") = .ok () ↔
      Returned event "boot_id" readIdentifier :=
    confirmField_echo hdict hunrepeated (h.bootId ▸ get?_bootId)
      fun v id hread => same_identifier hread
  have hsequence : confirmField floatEq event (itemValue result) (ascii "sequence_number") = .ok () ↔
      Returned event "sequence_number" readCounter :=
    confirmField_echo hdict hunrepeated (h.sequenceNumber ▸ get?_sequenceNumber)
      fun v c hread => same_counter hread
  have hobject : isDict (itemValue result) = true := rfl
  simp only [classifyItem, hobject, Bool.true_eq_false, if_false, except_bind_eq_ok, forM_eq_ok,
    itemOutcome_itemValue, Except.ok.injEq]
  simp only [identityFields, List.forall_mem_cons, List.not_mem_nil, false_implies, implies_true,
    and_true, hdevice, hboot, hsequence]
  constructor
  · rintro ⟨-, ⟨hdevice, hboot, hsequence⟩, htext⟩
    exact ⟨⟨hdevice, hboot, hsequence⟩, htext⟩
  · rintro ⟨hcorrelated, htext⟩
    exact ⟨(), ⟨hcorrelated.deviceId, hcorrelated.bootId, hcorrelated.sequenceNumber⟩, htext⟩

/-! ## The Whole Reply -/

theorem classifyItems_iff {events : List Value} {results : List TelemetryResponseItem}
    (hevents : ∀ event ∈ events, isDict event = true ∧ event.Unrepeated)
    (h : List.Forall₂ Echoes events results) :
    (events.zip (results.map itemValue)).mapM (fun p => classifyItem floatEq p.1 p.2) =
      .ok (results.map outcomeText) ↔ ∀ event ∈ events, Correlated event := by
  rw [mapM_eq_ok]
  -- Results come in the order of the events, so the two lists are taken together.
  induction h with
  | nil => simp
  | cons hfirst hrest ih =>
    rw [List.forall_mem_cons] at hevents
    obtain ⟨⟨hdict, hunrepeated⟩, hothers⟩ := hevents
    rw [List.map_cons, List.zip_cons_cons, List.map_cons, List.forall₂_cons,
      classifyItem_itemValue hdict hunrepeated hfirst, ih hothers, List.forall_mem_cons]
    simp

theorem classifyResponse_iff {events : List Value} {response : TelemetryBatchResponse}
    (hevents : ∀ event ∈ events, isDict event = true ∧ event.Unrepeated)
    (h : List.Forall₂ Echoes events response.results) :
    classifyResponse floatEq events (responseTree response).value =
      .ok (response.results.map outcomeText) ↔ ∀ event ∈ events, Correlated event := by
  rw [← classifyItems_iff hevents h, value_responseTree]
  have hdict : isDict (.object [(ascii "batch_id", .string response.batchId.text),
      (ascii "results", .array (response.results.map itemValue))]) = true := rfl
  have hbatch : get (.object [(ascii "batch_id", .string response.batchId.text),
      (ascii "results", .array (response.results.map itemValue))]) (ascii "batch_id") =
      some (.string response.batchId.text) := rfl
  have hresults : get (.object [(ascii "batch_id", .string response.batchId.text),
      (ascii "results", .array (response.results.map itemValue))]) (ascii "results") =
      some (.array (response.results.map itemValue)) := rfl
  have hlength := h.length_eq
  simp only [classifyResponse, hdict, hbatch, hresults, Bool.true_eq_false, if_false]
  rw [if_neg]
  simp [response.batchId.ne_nil, hlength]

end Classify

/-! ## Exchanges -/

/-- The events of a fixture and what is committed for them. -/
def sampleExchange (body : Bytes) : Option (List Value × TelemetryBatchResponse) :=
  match fixtureEvents samplePython body, parseTelemetryBatch samplePython body with
  | some events, .ok batch =>
    match ingestBatch exactColumn sampleClock sampleDb sampleGateway batch (routeBatchId 0) with
    | .ok (response, _) => some (events, response)
    | .error _ => none
  | _, _ => none

theorem sampleExchange_eq_some {body : Bytes} {events : List Value}
    {response : TelemetryBatchResponse} (h : sampleExchange body = some (events, response)) :
    fixtureEvents samplePython body = some events ∧
      ∃ batch db', parseTelemetryBatch samplePython body = .ok batch ∧
        ingestBatch exactColumn sampleClock sampleDb sampleGateway batch (routeBatchId 0) =
          .ok (response, db') := by
  unfold sampleExchange at h
  split at h
  · next events' batch hfixture hbatch =>
    split at h
    · next response' db' hcommit =>
      obtain ⟨rfl, rfl⟩ := Prod.mk.inj (Option.some.inj h)
      exact ⟨hfixture, batch, db', hbatch, hcommit⟩
    · simp at h
  · simp at h

/-- The reply to a fixture is understood, outcome by outcome, exactly if every part of the identity
of each event is valid by itself, null or missing. -/
theorem reply_classified_iff (floatEq : Number → Number → Bool) (simulator python : Interpreter)
    (pg : NumericColumn) (clock : Clock) (db db' : Db) (gatewayId batchId : Identifier)
    (body : Bytes) (events : List Value) (batch : ValidatedTelemetryBatch)
    (response : TelemetryBatchResponse) (hfixture : fixtureEvents simulator body = some events)
    (hbatch : parseTelemetryBatch python body = .ok batch)
    (hcommit : ingestBatch pg clock db gatewayId batch batchId = .ok (response, db')) :
    postBatch floatEq simulator events (responseBody response) =
      .ok (response.results.map outcomeText) ↔ ∀ event ∈ events, Correlated event := by
  obtain ⟨hitems, hevents⟩ := items_of_fixture hfixture hbatch
  obtain ⟨-, -, hsteps⟩ := ingestBatch_eq_ok hcommit
  rw [hitems] at hsteps
  rw [postBatch, loads_responseBody]
  exact classifyResponse_iff hevents (echoes_of_steps hsteps)

/-- A valid event comes back as it was sent. -/
theorem reply_classified_sample : ∃ events response,
    sampleExchange sampleBody = some (events, response) ∧
      postBatch (fun _ _ => false) samplePython events (responseBody response) =
        .ok [ascii "accepted"] ∧
      ∀ event ∈ events, Correlated event := by
  have hexchanged : (sampleExchange sampleBody).map (fun p => (p.2.results.map outcomeText,
      postBatch (fun _ _ => false) samplePython p.1 (responseBody p.2))) =
      some ([ascii "accepted"], .ok [ascii "accepted"]) := by decide +kernel
  obtain ⟨⟨events, response⟩, hexchange, hread⟩ := Option.map_eq_some_iff.mp hexchanged
  obtain ⟨houtcomes, hreply⟩ := Prod.mk.inj hread
  obtain ⟨hfixture, batch, db', hbatch, hcommit⟩ := sampleExchange_eq_some hexchange
  refine ⟨events, response, hexchange, hreply, ?_⟩
  apply (reply_classified_iff (fun _ _ => false) samplePython samplePython exactColumn sampleClock
    sampleDb db' sampleGateway (routeBatchId 0) sampleBody events batch response hfixture hbatch
    hcommit).mp
  exact hreply.trans (congrArg Except.ok houtcomes.symm)

/-- An empty device id. -/
def malformedBody : Bytes :=
  ascii "\x7b\"schema_version\":1,\"events\":[\x7b\"device_id\":\"\"\x7d]\x7d"

/-- The event without a valid device id is rejected as malformed, with a null in its place. The
gateway's reader takes that result; the simulator's raises. -/
theorem malformed_identity_raises :
    ∃ events batch response db', fixtureEvents samplePython malformedBody = some events ∧
      parseTelemetryBatch samplePython malformedBody = .ok batch ∧
      ingestBatch exactColumn sampleClock sampleDb sampleGateway batch (routeBatchId 0) =
        .ok (response, db') ∧
      response.results.map outcomeText = [ascii "rejected:malformed_value"] ∧
      parseDecisions (responseBody response) sampleClaimed =
        .ok [⟨.rejected, ascii "malformed_value"⟩] ∧
      postBatch (fun _ _ => false) samplePython events (responseBody response) =
        .error (.valueError "Response identity/order mismatch") := by
  have hexchanged : (sampleExchange malformedBody).map (fun p => (p.2.results.map outcomeText,
      parseDecisions (responseBody p.2) sampleClaimed,
      postBatch (fun _ _ => false) samplePython p.1 (responseBody p.2))) =
      some ([ascii "rejected:malformed_value"], .ok [⟨.rejected, ascii "malformed_value"⟩],
        .error (.valueError "Response identity/order mismatch")) := by decide +kernel
  obtain ⟨⟨events, response⟩, hexchange, hread⟩ := Option.map_eq_some_iff.mp hexchanged
  obtain ⟨houtcomes, hreadings⟩ := Prod.mk.inj hread
  obtain ⟨hgateway, hsimulator⟩ := Prod.mk.inj hreadings
  obtain ⟨hfixture, batch, db', hbatch, hcommit⟩ := sampleExchange_eq_some hexchange
  exact ⟨events, batch, response, db', hfixture, hbatch, hcommit, houtcomes, hgateway, hsimulator⟩

end EquipmentMonitoring.Exchange
