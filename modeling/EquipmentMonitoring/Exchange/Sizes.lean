import EquipmentMonitoring.Exchange.Responses
import EquipmentMonitoring.Gateway.Client

/-!
# Size Limits

The limits on a payload, on the number of events in a batch, on the request and on the response are
chosen apart. They fit together: no batch is too large to send, and no response too large to
receive.

## Key Results

- `length_backendEventJson`: a forwarded event is little longer than its payload
- `length_batchJson`, `length_responseBody`: the largest request and the largest response
- `batches_fit`: a request of accepted events never fails for its size, nor does its response
-/

namespace EquipmentMonitoring.Exchange

open EquipmentMonitoring.Json EquipmentMonitoring.Telemetry EquipmentMonitoring.Backend
open EquipmentMonitoring.Forwarder EquipmentMonitoring.Store EquipmentMonitoring.Client

/-! ## Rendered Lengths -/

/-- The members of an object, each with the comma or brace behind it. -/
def membersLength (ms : List (Member Tree)) : Nat :=
  (ms.map fun m => (renderMember m).length + 1).sum

def elementsLength (es : List (Element Tree)) : Nat :=
  (es.map fun e => (renderElement e).length + 1).sum

@[simp] theorem membersLength_nil : membersLength [] = 0 := rfl

@[simp] theorem membersLength_cons (m : Member Tree) (ms : List (Member Tree)) :
    membersLength (m :: ms) = (renderMember m).length + 1 + membersLength ms := rfl

theorem membersLength_append (ms ns : List (Member Tree)) :
    membersLength (ms ++ ns) = membersLength ms + membersLength ns := by
  rw [membersLength, List.map_append, List.sum_append, membersLength, membersLength]

@[simp] theorem elementsLength_cons (e : Element Tree) (es : List (Element Tree)) :
    elementsLength (e :: es) = (renderElement e).length + 1 + elementsLength es := rfl

theorem length_renderMembers_eq (ms : List (Member Tree)) :
    (renderMembers ms).length = membersLength ms := by
  induction ms with
  | nil => rfl
  | cons m rest ih =>
    rw [renderMembers, List.length_cons, List.length_append, ih, membersLength_cons]
    omega

theorem length_renderElements_eq (es : List (Element Tree)) :
    (renderElements es).length = elementsLength es := by
  induction es with
  | nil => rfl
  | cons e rest ih =>
    rw [renderElements, List.length_cons, List.length_append, ih, elementsLength_cons]
    omega

theorem length_render_object (first : Member Tree) (rest : List (Member Tree)) :
    (Tree.object first rest).render.length = 1 + membersLength (first :: rest) := by
  rw [Tree.render, List.length_cons, List.length_append, List.length_append,
    length_renderMembers_eq, List.length_singleton, membersLength_cons]
  omega

theorem length_render_ofMembers (ms : List (Member Tree)) :
    (Tree.ofMembers ms).render.length ≤ 2 + membersLength ms := by
  cases ms with
  | nil => exact Nat.le_refl 2
  | cons first rest =>
    rw [Tree.ofMembers, length_render_object]
    omega

theorem length_render_ofElements (es : List (Element Tree)) :
    (Tree.ofElements es).render.length ≤ 2 + elementsLength es := by
  cases es with
  | nil => exact Nat.le_refl 2
  | cons first rest =>
    rw [Tree.ofElements, Tree.render, List.length_cons, List.length_append, List.length_append,
      length_renderElements_eq, List.length_singleton, elementsLength_cons]
    omega

/-- Elements that are all at most so long. -/
theorem elementsLength_le {es : List (Element Tree)} {bound : Nat}
    (h : ∀ e ∈ es, (renderElement e).length ≤ bound) :
    elementsLength es ≤ es.length * (bound + 1) := by
  induction es with
  | nil => simp [elementsLength]
  | cons e rest ih =>
    have hfirst := h e (List.mem_cons_self ..)
    have hrest := ih fun x hx => h x (List.mem_cons_of_mem _ hx)
    rw [elementsLength_cons, List.length_cons, Nat.succ_mul]
    omega

/-! ## The Request -/

theorem length_renderMember_trimmed (m : Member Tree) :
    (renderMember (trimmed m)).length ≤ (renderMember m).length := by
  obtain ⟨before, key, afterKey, beforeValue, value, after⟩ := m
  simp only [trimmed, renderMember, Space.none, List.length_append, List.length_cons,
    List.length_nil]
  omega

/-- What is kept of the members is not longer. -/
theorem membersLength_kept (ms : List (Member Tree)) : membersLength (kept ms) ≤ membersLength ms := by
  induction ms with
  | nil => exact Nat.le_refl 0
  | cons m rest ih =>
    have htrimmed := length_renderMember_trimmed m
    rw [kept_cons]
    split
    · rw [membersLength_cons]
      omega
    · rw [membersLength_cons, membersLength_cons]
      omega

theorem length_receiptMember [Nlohmann.Library] (receivedAt : Bytes) :
    (renderMember (receiptMember receivedAt)).length ≤ 24 + 6 * receivedAt.length := by
  have hrender := congrArg List.length (renderMember_receipt receivedAt)
  have hname : (ascii ",\"gateway_received_at\":").length = 23 := rfl
  have hdump := Nlohmann.Library.length_token receivedAt
  rw [List.length_cons, List.length_append, hname] at hrender
  omega

/-- A forwarded event is longer than its payload by the receipt time at most. -/
theorem length_backendEventJson [Nlohmann.Library] {event : Event} (src : EventSource event)
    {out : Bytes} (h : backendEventJson event = .ok out) :
    out.length ≤ event.mqttPayload.length + (26 + 6 * event.gatewayReceivedAt.length) := by
  obtain ⟨hbom, -, rfl⟩ := backendEventJson_ok src h
  have hpayload := congrArg List.length (src.text.trans hbom)
  have hobject := length_render_object src.first src.rest
  have hkept := membersLength_kept src.members
  have hreceipt := length_receiptMember event.gatewayReceivedAt
  have hforwarded :=
    length_render_ofMembers (forwardedMembers src.members event.gatewayReceivedAt)
  rw [renderElement, List.length_append, List.length_append, hobject] at hpayload
  rw [forwardedMembers, membersLength_append, membersLength_cons, membersLength_nil] at hforwarded
  rw [forwardedTree, forwardedMembers]
  rw [EventSource.members] at hkept hforwarded ⊢
  omega

theorem length_intercalate_le (separator : UInt8) {outs : List Bytes} {bound : Nat}
    (h : ∀ out ∈ outs, out.length ≤ bound) :
    ([separator].intercalate outs).length ≤ outs.length * (bound + 1) := by
  induction outs with
  | nil => simp
  | cons out rest ih =>
    have hfirst := h out (List.mem_cons_self ..)
    have hrest := ih fun x hx => h x (List.mem_cons_of_mem _ hx)
    cases rest with
    | nil =>
      rw [List.intercalate_singleton, List.length_singleton]
      omega
    | cons next rest =>
      rw [List.intercalate_cons_cons, List.length_append, List.length_append,
        List.length_singleton, List.length_cons, Nat.succ_mul]
      omega

/-- The largest event that is forwarded: its payload, and a receipt time of 24 characters. -/
def maxEventBytes : Nat := maxPayloadBytes + (26 + 6 * 24)

section Request

variable {claimed : List QueuedEvent} {body : Bytes}

theorem length_event [Nlohmann.Library] {row : QueuedEvent} (haccepted : Accepted row)
    (hreceived : row.event.gatewayReceivedAt.length = 24) {out : Bytes}
    (h : backendEventJson row.event = .ok out) : out.length ≤ maxEventBytes := by
  obtain ⟨topic, payload, receivedAt, hparse⟩ := haccepted
  obtain ⟨src⟩ := exists_source hparse
  have hlength := length_backendEventJson src h
  obtain ⟨hpayload, -, -, hmax, -⟩ := parse_eq_ok hparse
  rw [hreceived, hpayload] at hlength
  rw [maxEventBytes]
  omega

theorem length_batchJson [Nlohmann.Library] (haccepted : ∀ row ∈ claimed, Accepted row)
    (hreceived : ∀ row ∈ claimed, row.event.gatewayReceivedAt.length = 24)
    (h : batchJson claimed = .ok body) :
    body ≠ [] ∧ body.length ≤ 32 + claimed.length * (maxEventBytes + 1) := by
  simp only [batchJson, except_bind_eq_ok, mapM_eq_ok, except_pure_eq_ok] at h
  obtain ⟨outs, houts, rfl⟩ := h
  -- One byte more than its text for each event: the comma or the closing bracket.
  have hevents : ∀ out ∈ outs, out.length ≤ maxEventBytes := by
    intro out hout
    obtain ⟨i, hi, rfl⟩ := List.getElem_of_mem hout
    have hrow : i < claimed.length := houts.length_eq.symm ▸ hi
    have hmem : claimed[i] ∈ claimed := List.getElem_mem hrow
    exact length_event (haccepted _ hmem) (hreceived _ hmem) (houts.get hrow hi)
  have hjoined := length_intercalate_le 0x2C hevents
  have hbefore : (ascii "\x7b\"schema_version\":1,\"events\":[").length = 30 := rfl
  have hafter : (ascii "]\x7d").length = 2 := rfl
  rw [← houts.length_eq] at hjoined
  refine ⟨by simp [ascii], ?_⟩
  rw [List.length_append, List.length_append, hbefore, hafter]
  omega

end Request

/-! ## The Response -/

/-- The largest result: two identifiers of 128 bytes, each written with six, and the longest texts
of all other fields. -/
def maxResultBytes : Nat := 1656

def maxIdentifierText : Nat := 2 + 6 * 128

section Response

variable {claimed : List QueuedEvent} {response : TelemetryBatchResponse}

theorem length_compactMember (name : String) (value : Tree) :
    (renderMember (compactMember name value)).length =
      (Literal.render (Nlohmann.dumpLiteral (ascii name))).length + 1 + value.render.length := by
  simp only [compactMember, renderMember, Space.none, List.nil_append, List.append_nil,
    List.length_append, List.length_cons]
  omega

theorem length_nullableTree {α : Type} {write : α → Tree} {a? : Option α} {bound : Nat}
    (hnull : 4 ≤ bound) (h : ∀ a ∈ a?, (write a).render.length ≤ bound) :
    (nullableTree write a?).render.length ≤ bound := by
  cases a? with
  | none => exact hnull
  | some a => exact h a rfl

theorem length_textTree {text : Bytes} {bound : Nat} (h : text.length ≤ bound) :
    (textTree text).render.length ≤ 2 + 6 * bound := by
  have hdump := Nlohmann.length_dumpLiteral text
  rw [textTree, Tree.render]
  omega

theorem length_outcome (outcome : Outcome) : (textTree outcome.text).render.length ≤ 11 := by
  cases outcome <;> decide

theorem length_reason (reason : ItemReason) : (textTree reason.text).render.length ≤ 20 := by
  cases reason <;> decide

theorem length_counter (c : Counter) : (Tree.number (naturalLiteral c.value)).render.length ≤ 19 := by
  have hdigits : (decimal c.value).length ≤ 19 :=
    length_decimal (by decide) (c.le.trans_lt (by decide))
  have hrender : (Tree.number (naturalLiteral c.value)).render = decimal c.value := by
    simp [Tree.render, Number.render, Number.renderTail, naturalLiteral, fracText, expText]
  rw [hrender]
  exact hdigits

theorem length_itemTree {result : TelemetryResponseItem}
    (hdevice : ∀ id ∈ result.deviceId, id.text.length ≤ 128)
    (hboot : ∀ id ∈ result.bootId, id.text.length ≤ 128) :
    (itemTree result).render.length ≤ maxResultBytes := by
  have hmembers := length_render_ofMembers (itemMembers result)
  have hid {id? : Option Identifier} (h : ∀ id ∈ id?, id.text.length ≤ 128) :
      (nullableTree (fun id => textTree id.text) id?).render.length ≤ maxIdentifierText :=
    length_nullableTree (by decide) fun id hid => length_textTree (h id hid)
  have hcounter : (nullableTree (fun c => Tree.number (naturalLiteral c.value))
      result.sequenceNumber).render.length ≤ 19 :=
    length_nullableTree (by decide) fun c _ => length_counter c
  -- The longest reason text bounds the optional member.
  have hreason : membersLength (result.reason.toList.map fun reason =>
      compactMember "reason" (textTree reason.text)) ≤ 30 := by
    cases result.reason with
    | none => decide
    | some reason =>
      have hkey : (Literal.render (Nlohmann.dumpLiteral (ascii "reason"))).length = 8 := by decide
      have hlength := length_reason reason
      rw [Option.toList_some, List.map_singleton, membersLength_cons, membersLength_nil,
        length_compactMember, hkey]
      omega
  have hdeviceKey : (Literal.render (Nlohmann.dumpLiteral (ascii "device_id"))).length = 11 := by
    decide
  have hbootKey : (Literal.render (Nlohmann.dumpLiteral (ascii "boot_id"))).length = 9 := by decide
  have hsequenceKey :
      (Literal.render (Nlohmann.dumpLiteral (ascii "sequence_number"))).length = 17 := by decide
  have houtcomeKey : (Literal.render (Nlohmann.dumpLiteral (ascii "outcome"))).length = 9 := by
    decide
  have hdeviceText := hid hdevice
  have hbootText := hid hboot
  have houtcome := length_outcome result.outcome
  rw [itemMembers, membersLength_append, membersLength_cons, membersLength_cons, membersLength_cons,
    membersLength_cons, membersLength_nil, length_compactMember, length_compactMember,
    length_compactMember, length_compactMember, hdeviceKey, hbootKey, hsequenceKey,
    houtcomeKey] at hmembers
  rw [maxIdentifierText] at hdeviceText hbootText
  rw [itemTree, itemMembers, maxResultBytes]
  omega

theorem length_responseBody (hid : response.batchId.text.length ≤ 36)
    (hresults : ∀ result ∈ response.results, (itemTree result).render.length ≤ maxResultBytes) :
    (responseBody response).length ≤ 512 + response.results.length * (maxResultBytes + 1) := by
  -- Each result pays for its own comma.
  have hitems : elementsLength (response.results.map fun result => compact (itemTree result)) ≤
      response.results.length * (maxResultBytes + 1) := by
    have hall : ∀ e ∈ response.results.map (fun result => compact (itemTree result)),
        (renderElement e).length ≤ maxResultBytes := by
      intro e he
      obtain ⟨result, hmem, rfl⟩ := List.mem_map.mp he
      have hlength := hresults result hmem
      simpa [renderElement, compact, Space.none] using hlength
    have hle := elementsLength_le hall
    rwa [List.length_map] at hle
  have harray := length_render_ofElements
    (response.results.map fun result => compact (itemTree result))
  have htext := length_textTree hid
  have hidKey : (Literal.render (Nlohmann.dumpLiteral (ascii "batch_id"))).length = 10 := by decide
  have hresultsKey : (Literal.render (Nlohmann.dumpLiteral (ascii "results"))).length = 9 := by
    decide
  rw [responseBody, responseTree, length_render_object, membersLength_cons, membersLength_cons,
    membersLength_nil, length_compactMember, length_compactMember, hidKey, hresultsKey]
  omega

/-- A result that names an accepted event is not too long. -/
theorem length_identified [Nlohmann.Library] {row : QueuedEvent} {result : TelemetryResponseItem}
    (haccepted : Accepted row) (h : Identifies result row.event) :
    (itemTree result).render.length ≤ maxResultBytes := by
  obtain ⟨topic, payload, receivedAt, hparse⟩ := haccepted
  obtain ⟨src⟩ := exists_source hparse
  obtain ⟨vd, -, hdevice⟩ := src.fields.deviceId
  obtain ⟨vb, -, hboot⟩ := src.fields.bootId
  obtain ⟨-, -, hdeviceLength, -⟩ := identifier_eq_ok.mp hdevice
  obtain ⟨-, -, hbootLength, -⟩ := identifier_eq_ok.mp hboot
  refine length_itemTree (fun id hid => ?_) fun id hid => ?_
  · rw [h.deviceId id hid]
    exact hdeviceLength
  · rw [h.bootId id hid]
    exact hbootLength

/-- One result for each accepted event. -/
theorem length_results [Nlohmann.Library] (haccepted : ∀ row ∈ claimed, Accepted row)
    (h : List.Forall₂ (fun row result => Identifies result row.event) claimed response.results) :
    ∀ result ∈ response.results, (itemTree result).render.length ≤ maxResultBytes := by
  intro result hresult
  obtain ⟨i, hi, rfl⟩ := List.getElem_of_mem hresult
  have hrow : i < claimed.length := h.length_eq.symm ▸ hi
  exact length_identified (haccepted _ (List.getElem_mem hrow)) (h.get hrow hi)

end Response

/-! ## Batches -/

/-- No request of accepted events and no response to it is too large, whatever the backend commits;
and the callback never computes a size that wraps. -/
theorem batches_fit [Nlohmann.Library] (claimed : List QueuedEvent) (body : Bytes)
    (haccepted : ∀ row ∈ claimed, Accepted row)
    (hreceived : ∀ row ∈ claimed, row.event.gatewayReceivedAt.length = 24)
    (hsize : 1 ≤ claimed.length ∧ claimed.length ≤ 500) (hbody : batchJson claimed = .ok body) :
    body.length ≤ maxRequestBytes ∧
    (∀ response : TelemetryBatchResponse, response.batchId.text.length = 36 →
      List.Forall₂ (fun row result => Identifies result row.event) claimed response.results →
      (responseBody response).length ≤ maxResponseBytes.toNat ∧
      ∀ (attempt : Attempt) (status : Int), attempt.Answered status →
        attempt.pieces.flatMap Piece.data = responseBody response →
        postBatch false attempt body = .ok ⟨status, responseBody response⟩) ∧
    (∀ (python : Interpreter) (pg : NumericColumn) (clock : Clock) (db db' : Db)
        (gatewayId : Identifier) (bits : Nat) (batch : ValidatedTelemetryBatch)
        (response : TelemetryBatchResponse), parseTelemetryBatch python body = .ok batch →
      ingestBatch pg clock db gatewayId batch (routeBatchId bits) = .ok (response, db') →
      response.batchId.text.length = 36 ∧
        List.Forall₂ (fun row result => Identifies result row.event) claimed response.results) ∧
    ∀ pieces : List Piece, (collect pieces).length ≤ maxResponseBytes.toNat ∧
      (maxResponseBytes - bodySize (collect pieces)).toNat =
        maxResponseBytes.toNat - (collect pieces).length ∧
      ∀ piece : Piece, ¬ (piece.size ≠ 0 ∧ piece.count > maxResponseBytes / piece.size) →
        (piece.size * piece.count).toNat = piece.size.toNat * piece.count.toNat := by
  obtain ⟨hne, hlength⟩ := length_batchJson haccepted hreceived hbody
  have hrequest : body.length ≤ maxRequestBytes := by
    -- each event is bounded, and the count limit does the rest
    have hcount := Nat.mul_le_mul_right (maxEventBytes + 1) hsize.2
    have hlimit : 32 + 500 * (maxEventBytes + 1) ≤ maxRequestBytes := by decide
    exact (hlength.trans (Nat.add_le_add_left hcount 32)).trans hlimit
  refine ⟨hrequest, fun response hid hidentifies => ?response, ?commit, fun pieces => ?pieces⟩
  case response =>
    have hresponse : (responseBody response).length ≤ maxResponseBytes.toNat := by
      have hbound := length_responseBody hid.le (length_results haccepted hidentifies)
      rw [← hidentifies.length_eq] at hbound
      have hcount := Nat.mul_le_mul_right (maxResultBytes + 1) hsize.2
      have hlimit : 512 + 500 * (maxResultBytes + 1) ≤ maxResponseBytes.toNat := by decide
      exact (hbound.trans (Nat.add_le_add_left hcount 512)).trans hlimit
    refine ⟨hresponse, fun attempt status hanswered hpieces => ?_⟩
    rw [← hpieces]
    exact postBatch_answered hanswered hne hrequest (hpieces ▸ hresponse)
  case commit =>
    intro python pg clock db db' gatewayId bits batch response hbatch hcommit
    obtain ⟨hid, hidentifies⟩ := identifies_of_commit haccepted hbody hbatch hcommit
    rw [hid, routeBatchId, length_uuidText]
    exact ⟨rfl, hidentifies⟩
  case pieces =>
    have hbounded := collect_bounded pieces
    exact ⟨hbounded, sub_exact hbounded, fun piece => mul_exact⟩

theorem batches_fit_sample : sampleBody.length ≤ maxRequestBytes := by
  have haccepted : ∀ row ∈ sampleClaimed, Accepted row := by
    intro row hrow
    obtain rfl := List.mem_singleton.mp hrow
    exact ⟨sampleTopic, samplePayload, sampleReceivedAt, parse_sample⟩
  have hreceived : ∀ row ∈ sampleClaimed, row.event.gatewayReceivedAt.length = 24 := by
    intro row hrow
    obtain rfl := List.mem_singleton.mp hrow
    decide
  exact (batches_fit sampleClaimed sampleBody haccepted hreceived (by decide) batchJson_sample).1

end EquipmentMonitoring.Exchange
