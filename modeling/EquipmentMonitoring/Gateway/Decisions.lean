import EquipmentMonitoring.Gateway.Accepted
import EquipmentMonitoring.Gateway.Store

/-!
# Reading the Backend's Response (`parse_decisions` in `forwarder.cpp`)

The response to a batch names an outcome for each claimed row, in claim order. It is read as a
whole: one deviation anywhere and no decision is made.

## Key Results

- `parseItem_eq_ok`: a decision on one row, and what the item must say for it
- `parseDecisions_eq_ok`: a response that decides is an envelope whose items all decide
-/

namespace EquipmentMonitoring.Forwarder

open EquipmentMonitoring.Json EquipmentMonitoring.Nlohmann EquipmentMonitoring.Store
open EquipmentMonitoring.Telemetry (Event get?_eq_some_mem)

/-! ## Comparing Values -/

def isNull : Value → Bool
  | .null => true
  | _ => false

/-- `value == integer` for a 64-bit integer: an unsigned value is converted to it first. -/
def equalsInt64 (kind : NumberKind) (i : Int) : Bool :=
  match kind with
  | .unsigned n => (if n < 2 ^ 63 then (n : Int) else n - 2 ^ 64) == i
  | .integer k => k == i
  | .float => false

/-- `is_number_integer() && value == integer`. -/
def isInteger (v : Value) (i : Int) : Bool :=
  match v with
  | .number n => equalsInt64 (numberKind n) i
  | _ => false

/-! ## Items -/

def identityMatches (item : Value) (event : Event) (allowNull : Bool) : Bool :=
  match item.get? (ascii "device_id"), item.get? (ascii "boot_id"),
    item.get? (ascii "sequence_number") with
  | some device, some boot, some sequence =>
    ((allowNull && isNull device) || isText device event.deviceId) &&
      ((allowNull && isNull boot) || isText boot event.bootId) &&
      ((allowNull && isNull sequence) || isInteger sequence event.sequenceNumber)
  | _, _, _ => false

def permanentReasons : List Bytes :=
  [ascii "unknown_device", ascii "wrong_gateway", ascii "invalid_metric", ascii "invalid_unit",
    ascii "value_out_of_range", ascii "malformed_value", ascii "identity_conflict"]

def permanentReason (reason : Bytes) : Bool := permanentReasons.contains reason

/-- The number of members of an item that confirms. -/
def confirmationSize (item : Value) : Nat := if contains item (ascii "reason") then 5 else 4

/-- The decision on one claimed row. -/
def parseItem (item : Value) (event : Event) : Except String DeliveryDecision :=
  match isObject item, item.get? (ascii "outcome") with
  | true, some (.string outcome) =>
    if outcome = ascii "accepted" ∨ outcome = ascii "duplicate" then
      -- four members, or five where a null reason is spelled out
      if size item ≠ confirmationSize item ∨
          identityMatches item event false = false ∨
          ((item.get? (ascii "reason")).any fun reason => !isNull reason) = true then
        .error "batch response identity mismatch"
      else .ok ⟨if outcome = ascii "accepted" then .accepted else .duplicate, []⟩
    else if outcome = ascii "rejected" then
      match item.get? (ascii "reason") with
      | some (.string reason) =>
        if size item ≠ 5 then .error "batch rejection lacks a reason"
        else if permanentReason reason = false ∨
            -- only a malformed value may come back without its identity
            identityMatches item event (reason == ascii "malformed_value") = false then
          .error "batch rejection identity mismatch"
        else .ok ⟨.rejected, reason⟩
      | _ => .error "batch rejection lacks a reason"
    else .error "unknown batch outcome"
  | _, _ => .error "invalid batch response item"

/-! ## Responses -/

/-- What the callback of `parse_decisions` throws; its table of keys is never too small. -/
def responseFault : KeyFault → String
  | .tooDeep => "batch response exceeds allowed depth"
  | .duplicate => "batch response contains duplicate JSON keys"
  | .outOfRange => "out of range"

/-- The results of an envelope for `count` rows. -/
def envelopeResults (response : Value) (count : Nat) : Except String (List Value) :=
  match response.get? (ascii "batch_id"), response.get? (ascii "results") with
  | some (.string batchId), some (.array results) =>
    if isObject response = false ∨ size response ≠ 2 ∨ batchId = [] ∨ 128 < batchId.length ∨
        results.length ≠ count then .error "invalid batch response envelope"
    else .ok results
  | _, _ => .error "invalid batch response envelope"

def parseDecisions [Nlohmann.Library] (body : Bytes) (claimed : List QueuedEvent) :
    Except String (List DeliveryDecision) := do
  let parsed := Nlohmann.read body
  let _ ← (trackAll 3 [] parsed.reports).mapError responseFault
  match parsed.result with
  | none => throw "parse error"
  | some doc => do
    let results ← envelopeResults doc.value.value claimed.length
    (claimed.zip results).mapM fun p => parseItem p.2 p.1.event

/-! ## What an Item Says -/

/-- The value is the text, or null where that is allowed. -/
def SaysText (allowNull : Bool) (v : Option Value) (text : Bytes) : Prop :=
  v = some (.string text) ∨ (allowNull = true ∧ v = some .null)

/-- The value is the integer, or null where that is allowed. -/
def SaysInteger (allowNull : Bool) (v : Option Value) (i : Int) : Prop :=
  (∃ n : Number, v = some (.number n) ∧ n.isIntegral = true ∧ n.intValue = i) ∨
    (allowNull = true ∧ v = some .null)

/-- The item carries the identity of the event. -/
structure Names (allowNull : Bool) (item : Value) (event : Event) : Prop where
  deviceId : SaysText allowNull (item.get? (ascii "device_id")) event.deviceId
  bootId : SaysText allowNull (item.get? (ascii "boot_id")) event.bootId
  sequenceNumber : SaysInteger allowNull (item.get? (ascii "sequence_number"))
    event.sequenceNumber

/-- The item confirms the event: stored now, or stored before. -/
structure Confirms (item : Value) (event : Event) (action : DeliveryAction) : Prop where
  outcome : (action = .accepted ∧ item.get? (ascii "outcome") = some (.string (ascii "accepted"))) ∨
    (action = .duplicate ∧ item.get? (ascii "outcome") = some (.string (ascii "duplicate")))
  names : Names false item event
  reason : item.get? (ascii "reason") = none ∨ item.get? (ascii "reason") = some .null

/-- The item rejects the event for good, with this reason. -/
structure Rejects (item : Value) (event : Event) (reason : Bytes) : Prop where
  outcome : item.get? (ascii "outcome") = some (.string (ascii "rejected"))
  stated : item.get? (ascii "reason") = some (.string reason)
  permanent : reason ∈ permanentReasons
  names : Names (reason == ascii "malformed_value") item event

/-- The decision an item calls for. -/
inductive Decides (item : Value) (event : Event) : DeliveryDecision → Prop where
  | confirm (action : DeliveryAction) (h : Confirms item event action) :
    Decides item event ⟨action, []⟩
  | reject (reason : Bytes) (h : Rejects item event reason) :
    Decides item event ⟨.rejected, reason⟩

theorem isText_iff {v : Value} {text : Bytes} : isText v text = true ↔ v = .string text := by
  cases v <;> simp [isText]

theorem isNull_iff {v : Value} : isNull v = true ↔ v = .null := by
  cases v <;> simp [isNull]

theorem saysText_iff {allowNull : Bool} {v : Value} {text : Bytes} :
    SaysText allowNull (some v) text ↔
      ((allowNull && isNull v) || isText v text) = true := by
  simp only [SaysText, Option.some.injEq, Bool.or_eq_true, Bool.and_eq_true, isNull_iff,
    isText_iff]
  exact or_comm

/-- An event's number is never negative, so no unsigned value wraps around to it. -/
theorem saysInteger_of_isInteger {allowNull : Bool} {v : Value} {i : Int} (hi : 0 ≤ i)
    (h : ((allowNull && isNull v) || isInteger v i) = true) : SaysInteger allowNull (some v) i := by
  simp only [Bool.or_eq_true, Bool.and_eq_true, isNull_iff] at h
  rcases h with ⟨hallow, rfl⟩ | h
  · exact .inr ⟨hallow, rfl⟩
  · cases v with
    | number n =>
      refine .inl ⟨n, rfl, ?_⟩
      simp only [isInteger, numberKind] at h
      split at h
      · next hintegral =>
        refine ⟨hintegral, ?_⟩
        split at h
        · split at h
          · simpa [equalsInt64] using h
          · simp [equalsInt64] at h
        · next hnegative =>
          -- a number without a sign is its digits, whichever of the two kinds holds it
          have hvalue : n.intValue = n.int.value := by simp [Number.intValue, hnegative]
          split at h
          · simp only [equalsInt64, beq_iff_eq] at h
            split at h <;> omega
          · simp [equalsInt64] at h
      · simp [equalsInt64] at h
    | _ => simp [isInteger] at h

theorem names_of_identityMatches {item : Value} {event : Event} {allowNull : Bool}
    (hseq : 0 ≤ event.sequenceNumber) (h : identityMatches item event allowNull = true) :
    Names allowNull item event := by
  unfold identityMatches at h
  split at h
  · next device boot sequence hdevice hboot hsequence =>
    simp only [Bool.and_eq_true] at h
    exact ⟨hdevice ▸ saysText_iff.mpr h.1.1, hboot ▸ saysText_iff.mpr h.1.2,
      hsequence ▸ saysInteger_of_isInteger hseq h.2⟩
  · simp at h

theorem mem_permanentReasons {reason : Bytes} :
    permanentReason reason = true ↔ reason ∈ permanentReasons := by
  simp [permanentReason]

/-- A decision is made only on what the item says. -/
theorem parseItem_eq_ok {item : Value} {event : Event} {d : DeliveryDecision}
    (hseq : 0 ≤ event.sequenceNumber) (h : parseItem item event = .ok d) :
    Decides item event d := by
  unfold parseItem at h
  split at h
  · next outcome _ houtcome =>
    split at h
    · next hconfirms =>
      split at h
      · simp at h
      · next hmatches =>
        simp only [not_or, Bool.not_eq_false, Bool.not_eq_true] at hmatches
        obtain ⟨-, hidentity, hreason⟩ := hmatches
        obtain rfl := Except.ok.inj h
        -- a confirmation names the event in full and gives no reason, or a null one
        refine .confirm _ ⟨?_, names_of_identityMatches hseq hidentity, ?_⟩
        · rcases hconfirms with rfl | rfl
          · exact .inl ⟨by simp, houtcome⟩
          · exact .inr ⟨by decide, houtcome⟩
        · cases hget : item.get? (ascii "reason") with
          | none => exact .inl rfl
          | some reason =>
            simp only [hget, Option.any_some, Bool.not_eq_false'] at hreason
            exact .inr (congrArg some (isNull_iff.mp hreason))
    · split at h
      · next hrejected =>
        subst hrejected
        split at h
        · next reason hget =>
          split at h
          · simp at h
          · split at h
            · simp at h
            · next hmatches =>
              simp only [not_or, Bool.not_eq_false] at hmatches
              obtain rfl := Except.ok.inj h
              exact .reject _ ⟨houtcome, hget, mem_permanentReasons.mp hmatches.1,
                names_of_identityMatches hseq hmatches.2⟩
        · simp at h
      · simp at h
  · simp at h

/-! ## What a Response Says -/

/-- The body is one value without duplicate keys, an object of exactly a batch id and results. -/
def Envelope [Nlohmann.Library] (body : Bytes) (results : List Value) : Prop :=
  ∃ doc, Nlohmann.parse body = some doc ∧ doc.value.uniqueKeys = true ∧
    ∃ batchId, batchId ≠ [] ∧ batchId.length ≤ 128 ∧
      (doc.value.value = .object [(ascii "batch_id", .string batchId),
          (ascii "results", .array results)] ∨
        doc.value.value = .object [(ascii "results", .array results),
          (ascii "batch_id", .string batchId)])

/-- An object with two members, both known by their different names, is those two in some order. -/
theorem object_of_two {v a b : Value} {key key' : Bytes} (hobject : isObject v = true)
    (hsize : size v = 2) (hne : key ≠ key') (ha : v.get? key = some a) (hb : v.get? key' = some b) :
    v = .object [(key, a), (key', b)] ∨ v = .object [(key', b), (key, a)] := by
  have hmem := get?_eq_some_mem ha
  have hmem' := get?_eq_some_mem hb
  cases v with
  | object ms =>
    obtain ⟨m₁, m₂, rfl⟩ := List.length_eq_two.mp hsize
    simp only [Value.members, List.mem_cons, List.not_mem_nil, or_false] at hmem hmem'
    rcases hmem with rfl | rfl <;> rcases hmem' with h | h
    · exact absurd (Prod.mk.inj h).1.symm hne
    · exact .inl (by rw [h])
    · exact .inr (by rw [h])
    · exact absurd (Prod.mk.inj h).1.symm hne
  | _ => simp [isObject] at hobject

theorem envelopeResults_eq_ok {response : Value} {count : Nat} {results : List Value}
    (h : envelopeResults response count = .ok results) :
    results.length = count ∧ ∃ batchId, batchId ≠ [] ∧ batchId.length ≤ 128 ∧
      (response = .object [(ascii "batch_id", .string batchId), (ascii "results", .array results)] ∨
        response = .object [(ascii "results", .array results),
          (ascii "batch_id", .string batchId)]) := by
  unfold envelopeResults at h
  split at h
  · next batchId results' hbatch hresults =>
    split at h
    · simp at h
    · next hchecks =>
      simp only [not_or, Bool.not_eq_false, not_not, Nat.not_lt] at hchecks
      obtain rfl := Except.ok.inj h
      obtain ⟨hobject, hsize, hne, hmax, hlength⟩ := hchecks
      exact ⟨hlength, batchId, hne, hmax,
        object_of_two hobject hsize (by decide) hbatch hresults⟩
  · simp at h

/-- Every decision of a response rests on the item at its row's place. -/
theorem parseDecisions_eq_ok [Nlohmann.Library] {body : Bytes} {claimed : List QueuedEvent}
    {decisions : List DeliveryDecision}
    (hseq : ∀ row ∈ claimed, 0 ≤ row.event.sequenceNumber)
    (h : parseDecisions body claimed = .ok decisions) :
    ∃ results, Envelope body results ∧ results.length = claimed.length ∧
      List.Forall₂ (fun p d => Decides p.2 p.1.event d) (claimed.zip results) decisions := by
  simp only [parseDecisions, except_bind_eq_ok, except_mapError_eq_ok] at h
  obtain ⟨keys, hkeys, h⟩ := h
  split at h
  · simp at h
  · next doc hdoc =>
    obtain ⟨results, henvelope, hitems⟩ := except_bind_eq_ok.mp h
    have hreports : (Nlohmann.read body).reports = doc.value.events 0 := read_reports hdoc
    rw [hreports] at hkeys
    obtain ⟨-, hunique⟩ := track_ok_iff.mp ⟨keys, hkeys⟩
    obtain ⟨hlength, hshape⟩ := envelopeResults_eq_ok henvelope
    refine ⟨results, ⟨doc, hdoc, hunique, hshape⟩, hlength, ?_⟩
    obtain ⟨hlengths, hall⟩ := List.forall₂_iff_zip.mp (mapM_eq_ok.mp hitems)
    refine List.forall₂_iff_zip.mpr ⟨hlengths, fun {p d} hmem => ?_⟩
    -- each decision belongs to the claimed row at its place
    have hrow : p.1 ∈ claimed := (List.of_mem_zip (List.of_mem_zip hmem).1).1
    exact parseItem_eq_ok (hseq p.1 hrow) (hall hmem)

end EquipmentMonitoring.Forwarder
