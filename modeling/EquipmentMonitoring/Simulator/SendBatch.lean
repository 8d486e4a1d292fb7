import EquipmentMonitoring.Backend.Loads
import EquipmentMonitoring.Foundations.Except
import EquipmentMonitoring.Foundations.Numerals

/-!
# Sending a Batch (`simulator/send_batch.py`)

The simulator sends a fixture and compares what comes back with the events it has sent, result by
result: a result confirms the event at its place only if it repeats the three fields of its
identity, as values of the same Python type.

## Layers

- `get`, `typeOf`, `equal`: what `json.load` has made of a text, as Python sees it
- `loads`, `fixtureEvents`: the fixture and the events in it
- `classifyResponse`: the outcomes of a response, or the error it raises
- `postBatch`: the answer of the backend, read
-/

namespace EquipmentMonitoring.Simulator

open EquipmentMonitoring.Json
open EquipmentMonitoring.Backend (Interpreter maxStrDigits)

/-! ## Python Values -/

inductive PythonType where
  | none
  | bool
  | int
  | float
  | str
  | list
  | dict
deriving DecidableEq

/-- `type(value)`. -/
def typeOf : Value → PythonType
  | .null => .none
  | .bool _ => .bool
  | .number n => if n.isIntegral then .int else .float
  | .string _ => .str
  | .array _ => .list
  | .object _ => .dict

def isDict (v : Value) : Bool := typeOf v = .dict

/-- The value under a key; a key that is repeated keeps its last value. -/
def lookup (members : List (Bytes × Value)) (key : Bytes) : Option Value :=
  (members.reverse.find? fun m => m.1 == key).map Prod.snd

/-- `value.get(key)`, and whether there is such a key. -/
def get (v : Value) (key : Bytes) : Option Value := lookup v.members key

/-- The number a value is to `==`. -/
def numeral? : Value → Option Number
  | .bool b => some (naturalLiteral (if b then 1 else 0))
  | .number n => some n
  | _ => none

section Equality

-- `==` on two numbers of which one is a `float`
variable (floatEq : Number → Number → Bool)

def numbersEqual (m n : Number) : Bool :=
  if m.isIntegral && n.isIntegral then m.intValue == n.intValue else floatEq m n

mutual

/-- `==`. -/
def equal : Value → Value → Bool
  | .null, .null => true
  | .string s, .string t => s == t
  | .array vs, .array ws => itemsEqual vs ws
  | .object ms, .object ns => membersEqual ms ns && ns.all fun n => ms.any fun m => m.1 == n.1
  -- True and 1 are equal in Python; the type is compared apart
  | v, w =>
    match numeral? v, numeral? w with
    | some m, some n => numbersEqual floatEq m n
    | _, _ => false

def itemsEqual : List Value → List Value → Bool
  | [], [] => true
  | v :: vs, w :: ws => equal v w && itemsEqual vs ws
  | _, _ => false

/-- Every key of the first dictionary has an equal value in the second. -/
def membersEqual : List (Bytes × Value) → List (Bytes × Value) → Bool
  | [], _ => true
  | (key, v) :: rest, ns =>
    -- a name that comes again is judged by its last value
    ((rest.any fun m => m.1 == key) ||
      match lookup ns key with
      | some w => equal v w
      | none => false) && membersEqual rest ns

end

end Equality

/-! ## Fixtures -/

/-- The number tokens that convert; a `float` always does. -/
def dialect : Dialect where
  number n := !n.isIntegral || decide (n.int.text.length ≤ maxStrDigits)
  string _ := true

/-- `json.loads` without hooks, on a JSON text in UTF-8. What Python's reader takes besides (a byte
order mark, other encodings, `NaN`) is no body the backend takes or sends. -/
def loads (python : Interpreter) (body : Bytes) : Option Value :=
  if Utf8.valid body then
    match Json.parse dialect body with
    | some doc =>
      if doc.value.height ≤ python.recursionLimit then some doc.value.value else none
    | none => none
  else none

/-- The checks of `main` on a fixture: 1 to 500 event objects. -/
def fixtureEvents (python : Interpreter) (body : Bytes) : Option (List Value) :=
  match loads python body with
  | none => none
  | some payload =>
    match get payload (ascii "events") with
    | some (.array events) =>
      -- main checks the count and that every event is an object
      if (1 ≤ events.length ∧ events.length ≤ 500) ∧ events.all isDict = true then some events
      else none
    | _ => none

/-! ## Responses -/

/-- What reading a reply raises. -/
inductive PythonError where
  | valueError (message : String)
  /-- An event without `get`. -/
  | attributeError
  /-- The reply is no text that loads. -/
  | decodeError
deriving DecidableEq

def identityFields : List Bytes := [ascii "device_id", ascii "boot_id", ascii "sequence_number"]

def itemOutcomes : List Bytes := [ascii "accepted", ascii "duplicate", ascii "rejected"]

section Classify

variable (floatEq : Number → Number → Bool)

/-- One turn of the loop over the fields of an identity. -/
def confirmField (source result : Value) (field : Bytes) : Except PythonError Unit :=
  match get result field with
  | none => .error (.valueError "Response identity/order mismatch")
  | some value =>
    -- `source.get` of an event that is no object
    if isDict source = false then .error .attributeError
    else
      let own := (get source field).getD .null
      if equal floatEq value own = false ∨ typeOf value ≠ typeOf own then
        .error (.valueError "Response identity/order mismatch")
      else .ok ()

/-- The outcome of one result, with the reason of a rejection. -/
def itemOutcome (result : Value) : Except PythonError Bytes :=
  match get result (ascii "outcome") with
  | some (.string outcome) =>
    if itemOutcomes.contains outcome = false then .error (.valueError "Unknown item outcome")
    else if outcome = ascii "rejected" then
      match get result (ascii "reason") with
      -- the text reported is `rejected:reason`
      | some (.string reason) =>
        if reason = [] then .error (.valueError "Rejection missing a reason")
        else .ok (outcome ++ ascii ":" ++ reason)
      | _ => .error (.valueError "Rejection missing a reason")
    else
      -- a missing reason and a null one are the same to `.get`
      match (get result (ascii "reason")).getD .null with
      | .null => .ok outcome
      | _ => .error (.valueError "Contradictory item response")
  | _ => .error (.valueError "Unknown item outcome")

/-- One turn of the loop over events and results. -/
def classifyItem (source result : Value) : Except PythonError Bytes :=
  if isDict result = false then .error (.valueError "Malformed item response")
  else do
    identityFields.forM (confirmField floatEq source result)
    itemOutcome result

/-- `classify_response`. -/
def classifyResponse (events : List Value) (response : Value) : Except PythonError (List Bytes) :=
  if isDict response = false then .error (.valueError "Malformed batch response")
  else
    match get response (ascii "batch_id"), get response (ascii "results") with
    | some (.string batchId), some (.array results) =>
      -- an empty batch_id is falsy
      if batchId = [] ∨ results.length ≠ events.length then
        .error (.valueError "Incomplete batch response")
      else (events.zip results).mapM fun p => classifyItem floatEq p.1 p.2
    | _, _ => .error (.valueError "Incomplete batch response")

/-- What `post_batch` makes of the reply to its request. -/
def postBatch (python : Interpreter) (events : List Value) (reply : Bytes) :
    Except PythonError (List Bytes) :=
  match loads python reply with
  | none => .error .decodeError
  | some response => classifyResponse floatEq events response

end Classify

end EquipmentMonitoring.Simulator
