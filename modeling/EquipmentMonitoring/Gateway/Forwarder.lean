import EquipmentMonitoring.Gateway.Decisions
import EquipmentMonitoring.Gateway.Forwarding
import EquipmentMonitoring.Gateway.StoreInvariant

/-!
# One Round of the Forwarder (`Forwarder::drain_once`)

A round claims a batch, sends it, and settles every claimed row by the response. Anything but a
readable response of status 200 returns the whole batch to pending.

## Layers

- `settle`: what follows the HTTP exchange
- `drainOnce`: a whole round, the exchange being a function of the request body
-/

namespace EquipmentMonitoring.Forwarder

open EquipmentMonitoring.Store

/-! ## The Exchange -/

structure Response where
  statusCode : Int
  body : Bytes

inductive RunResult where
  | idle
  | delivered
  | retry
  | authenticationFailure
deriving DecidableEq

/-! ## Log Entries -/

inductive Level where
  | info
  | warning
  | error
deriving DecidableEq

/-- What `log` is given; the component is always the forwarder. -/
structure LogEntry where
  level : Level
  event : String
  message : String
  queueDepth : Nat
deriving DecidableEq

/-- What a round reports when it does not throw. -/
structure Round where
  result : RunResult
  log : Option LogEntry
deriving DecidableEq

/-! ## Settling -/

def retry : DeliveryDecision := ⟨.retry, []⟩

/-- The whole batch returns to pending. -/
def release (now : Bytes) (claimed : List QueuedEvent) : Sql Tables Unit :=
  applyDecisions now claimed (List.replicate claimed.length retry)

/-- The batch is returned and the reason logged. -/
def deferDelivery (now : Bytes) (claimed : List QueuedEvent) (level : Level) (message : String)
    (result : RunResult) : Sql Tables Round := do
  release now claimed
  let depth ← queueDepth
  return ⟨result, some ⟨level, "delivery_deferred", message, depth⟩⟩

def isRejected (decision : DeliveryDecision) : Bool := decision.action == .rejected

/-- The decisions are applied; when that throws, the batch is returned and the exception goes on. -/
def deliver (now : Bytes) (claimed : List QueuedEvent) (decisions : List DeliveryDecision) :
    Sql Tables Round := do
  -- a decision that cannot be applied releases the whole batch
  Sql.orElse (applyDecisions now claimed decisions) fun what => do
    release now claimed
    Sql.raise what
  let quarantined := decisions.countP isRejected
  let confirmed := decisions.length - quarantined
  let depth ← queueDepth
  return ⟨.delivered, some ⟨.info, "batch_applied",
    "confirmed=" ++ toString confirmed ++ " quarantined=" ++ toString quarantined, depth⟩⟩

/-- What follows the exchange: a response, or an exception. -/
def settle [Nlohmann.Library] (now : Bytes) (claimed : List QueuedEvent)
    (exchange : Except String Response) :
    Sql Tables Round :=
  match exchange with
  | .error _ => deferDelivery now claimed .warning "http_request_failed" .retry
  | .ok response =>
    if response.statusCode ≠ 200 then
      deferDelivery now claimed .warning
        ("backend_http_status=" ++ toString response.statusCode)
        -- an authentication failure is reported apart, the rows are retried all the same
        (if response.statusCode = 401 ∨ response.statusCode = 403 then .authenticationFailure
          else .retry)
    else
      match parseDecisions response.body claimed with
      | .error _ => deferDelivery now claimed .error "invalid_batch_response" .retry
      | .ok decisions => deliver now claimed decisions

/-! ## A Round -/

/-- What follows the claim. -/
def forward [Nlohmann.Library] (now : Bytes) (postBatch : Bytes → Except String Response)
    (claimed : List QueuedEvent) : Sql Tables Round :=
  if claimed = [] then Sql.ok ⟨.idle, none⟩
  else
    match batchJson claimed with
    | .error _ => deferDelivery now claimed .error "stored_event_conversion_failed" .retry
    | .ok body => settle now claimed (postBatch body)

def drainOnce [Nlohmann.Library] (now : Bytes) (postBatch : Bytes → Except String Response) :
    Sql Tables Round := do
  let claimed ← claimPending maxBatchSize
  forward now postBatch claimed

end EquipmentMonitoring.Forwarder
