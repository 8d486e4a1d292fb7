import EquipmentMonitoring.Backend.Schemas
import EquipmentMonitoring.Foundations.Numerals
import EquipmentMonitoring.Gateway.Nlohmann

/-!
# Committed Responses on the Wire (`telemetry/router.py`)

The route gives each batch an id of its own and answers with the committed response. Fields that
were never set are left out: an item has a reason member exactly when it is a rejection, since
no other result is built with one. `json.dumps` with `ensure_ascii=False` escapes the octets the
gateway's writer escapes, in the same spelling.
-/

namespace EquipmentMonitoring.Backend

open EquipmentMonitoring.Json

/-! ## Batch Ids -/

/-- `str(uuid4())` for the 128 bits drawn: hexadecimal digits in five groups. -/
def uuidText (bits : Nat) : Bytes :=
  numeral 16 8 (bits / 16 ^ 24) ++ 0x2D :: numeral 16 4 (bits / 16 ^ 20) ++
    0x2D :: numeral 16 4 (bits / 16 ^ 16) ++ 0x2D :: numeral 16 4 (bits / 16 ^ 12) ++
    0x2D :: numeral 16 12 bits

@[simp] theorem length_uuidText (bits : Nat) : (uuidText bits).length = 36 := by
  simp [uuidText]

theorem mem_uuidText {bits : Nat} {b : UInt8} (hb : b ∈ uuidText bits) : 0x2D ≤ b ∧ b ≤ 0x66 := by
  simp only [uuidText, List.mem_append, List.mem_cons] at hb
  have hdigit {width n : Nat} (h : b ∈ numeral 16 width n) : 0x2D ≤ b ∧ b ≤ 0x66 :=
    have hmem := mem_numeral (by decide) (Nat.le_refl _) h
    ⟨UInt8.le_trans (by decide) hmem.1, hmem.2⟩
  rcases hb with (((h | rfl | h) | rfl | h) | rfl | h) | rfl | h
  all_goals first | exact hdigit h | decide

theorem uuidText_isIdentifier (bits : Nat) : isIdentifier (uuidText bits) = true := by
  have hvalid : Utf8.valid (uuidText bits) = true :=
    Utf8.valid_of_ascii fun b hb => UInt8.le_trans (mem_uuidText hb).2 (by decide)
  have hlength := Utf8.length_le_size (uuidText bits)
  have hempty : (uuidText bits).isEmpty = false := by simp [uuidText, numeral]
  have hnul : (uuidText bits).contains 0 = false := by
    rw [List.contains_eq_any_beq, List.any_eq_false]
    intro b hb h0
    obtain rfl : 0 = b := by simpa using h0
    exact absurd (mem_uuidText hb).1 (by decide)
  rw [length_uuidText] at hlength
  have hmax : Utf8.length (uuidText bits) ≤ maxIdentifierLength := hlength.trans (by decide)
  rw [isIdentifier, hvalid, hempty, hnul]
  simpa using hmax

/-- The id the route passes on. -/
def routeBatchId (bits : Nat) : Identifier := ⟨uuidText bits, uuidText_isIdentifier bits⟩

/-! ## Bodies -/

def Outcome.text : Outcome → Bytes
  | .accepted => ascii "accepted"
  | .duplicate => ascii "duplicate"
  | .rejected => ascii "rejected"

def ItemReason.text : ItemReason → Bytes
  | .unknownDevice => ascii "unknown_device"
  | .wrongGateway => ascii "wrong_gateway"
  | .invalidMetric => ascii "invalid_metric"
  | .invalidUnit => ascii "invalid_unit"
  | .valueOutOfRange => ascii "value_out_of_range"
  | .malformedValue => ascii "malformed_value"
  | .identityConflict => ascii "identity_conflict"

/-- A string token as `json.dumps` writes it. -/
def textTree (text : Bytes) : Tree := .string (Nlohmann.dumpLiteral text)

/-- A member between the separators `,` and `:`. -/
def compactMember (name : String) (value : Tree) : Member Tree :=
  ⟨Space.none, Nlohmann.dumpLiteral (ascii name), Space.none, Space.none, value, Space.none⟩

def compact (value : Tree) : Element Tree := ⟨Space.none, value, Space.none⟩

/-- The value of a nullable field. -/
def nullableTree {α : Type} (write : α → Tree) : Option α → Tree
  | some a => write a
  | none => .null

/-- The members of one result; the reason only where it was set. -/
def itemMembers (result : TelemetryResponseItem) : List (Member Tree) :=
  [compactMember "device_id" (nullableTree (fun id => textTree id.text) result.deviceId),
    compactMember "boot_id" (nullableTree (fun id => textTree id.text) result.bootId),
    compactMember "sequence_number"
      (nullableTree (fun c => .number (naturalLiteral c.value)) result.sequenceNumber),
    compactMember "outcome" (textTree result.outcome.text)] ++
  result.reason.toList.map fun reason => compactMember "reason" (textTree reason.text)

def itemTree (result : TelemetryResponseItem) : Tree := Tree.ofMembers (itemMembers result)

def responseTree (response : TelemetryBatchResponse) : Tree :=
  .object (compactMember "batch_id" (textTree response.batchId.text))
    [compactMember "results"
      (Tree.ofElements (response.results.map fun result => compact (itemTree result)))]

/-- The body of the answer. -/
def responseBody (response : TelemetryBatchResponse) : Bytes := (responseTree response).render

end EquipmentMonitoring.Backend
