import EquipmentMonitoring.Foundations.Decimal
import EquipmentMonitoring.Foundations.Json.RoundTrip

/-!
# `json.loads` as the Backend Calls It

The body is decoded as UTF-8 and read with Python's `json` module: integers become `int`, every
other number goes to `decimal.Decimal` unrounded, repeated object members and the constants of
JavaScript are errors. What the interpreter limits, the reader limits too:

- an `int` is converted from at most 4300 digits
- a `Decimal` is exact or `InvalidOperation` is raised
- containers nest up to the recursion limit

## Key Results

- `loads_eq_some_iff`: the texts that load, and what they load as
-/

namespace EquipmentMonitoring.Backend

open EquipmentMonitoring.Json

/-- The interpreter the backend runs in; no event comes near its recursion limit. -/
structure Interpreter where
  recursionLimit : Nat
  le_recursionLimit : 64 ≤ recursionLimit

/-! ## Numbers -/

/-- The default of `sys.set_int_max_str_digits`. -/
def maxStrDigits : Nat := 4300

/-- `decimal.MAX_EMAX`. -/
def maxEmax : Int := 999999999999999999

/-- `decimal.MIN_ETINY`. -/
def minEtiny : Int := -1999999999999999997

/-- Decimal digits of a coefficient; zero has one. -/
def countDigits (n : Nat) : Nat := Nat.log 10 n + 1

/-- The exponent the number has with one digit before the point. -/
def adjusted (n : Number) : Int := n.exponent + countDigits n.coefficient - 1

/-- `Decimal(text)` is exact. -/
def exactDecimal (n : Number) : Bool :=
  decide (minEtiny ≤ n.exponent) && decide (adjusted n ≤ maxEmax)

/-- The number tokens that convert. -/
def dialect : Dialect where
  number n := if n.isIntegral then decide (n.int.text.length ≤ maxStrDigits) else exactDecimal n
  string _ := true

/-! ## Bodies -/

/-- `json.loads(body.decode("utf-8"), ..)`: none for every error the caller turns into
`malformed_batch`. -/
def loads (python : Interpreter) (body : Bytes) : Option Value :=
  if Utf8.valid body then
    match Json.parse dialect body with
    | some doc =>
      -- _unique_object refuses a repeated name, and json.loads nesting that is too deep
      if doc.value.uniqueKeys && decide (doc.value.height ≤ python.recursionLimit) then
        some doc.value.value
      else none
    | none => none
  else none

theorem loads_eq_some_iff {python : Interpreter} {body : Bytes} {v : Value} :
    loads python body = some v ↔
      Utf8.valid body = true ∧ ∃ doc : Element Tree, renderElement doc = body ∧
        doc.value.accepted dialect = true ∧ doc.value.uniqueKeys = true ∧
        doc.value.height ≤ python.recursionLimit ∧ doc.value.value = v := by
  unfold loads
  constructor
  · intro h
    split at h
    · next hvalid =>
      split at h
      · next doc hdoc =>
        obtain ⟨hrender, haccepted⟩ := parse_eq_some_iff.mp hdoc
        split at h
        · next hchecks =>
          rw [Bool.and_eq_true, decide_eq_true_iff] at hchecks
          exact ⟨hvalid, doc, hrender, haccepted, hchecks.1, hchecks.2, Option.some.inj h⟩
        · simp at h
      · simp at h
    · simp at h
  · rintro ⟨hvalid, doc, hrender, haccepted, hunique, hheight, rfl⟩
    rw [if_pos hvalid, parse_eq_some_iff.mpr ⟨hrender, haccepted⟩]
    simp [hunique, hheight]

/-- A text loads as the value of the only tree it renders. -/
theorem loads_render {python : Interpreter} {doc : Element Tree} {v : Value}
    (h : loads python (renderElement doc) = some v) :
    doc.value.accepted dialect = true ∧ doc.value.uniqueKeys = true ∧ doc.value.value = v := by
  obtain ⟨-, doc', hrender, haccepted, hunique, -, hv⟩ := loads_eq_some_iff.mp h
  obtain rfl := renderElement_injective hrender
  exact ⟨haccepted, hunique, hv⟩

end EquipmentMonitoring.Backend
