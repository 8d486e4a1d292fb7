import EquipmentMonitoring.Foundations.Programs
import EquipmentMonitoring.Foundations.Utf8

/-!
# What Device Management Asks the Database and the Broker

A management call changes two systems: the registry, in one transaction on the row of one device,
and the accounts of the MQTT broker, one command after another. The broker is any whose Dynamic
Security plugin answers and changes its accounts as documented. Each place in the code that asks
the broker something or commits is a `Site` of its own, so that a failure can be told where it
strikes.

## Layers

1. `DynamicSecurity`: the broker, known by the answers and effects its plugin documents
2. `World`: the registry with its row locks, the legacy password file, and the broker
3. `perform`: what a request does, confirmed or not
-/

namespace EquipmentMonitoring.Devices

/-! ## The Broker's Accounts -/

/-- What `getClient` tells of an account. -/
structure Client where
  roles : List Bytes
  disabled : Bool
deriving DecidableEq

structure Acl where
  acltype : Bytes
  topic : Bytes
  priority : Int
  allow : Bool

structure RolePriority where
  rolename : Bytes
  priority : Int

/-- The commands of `$CONTROL/dynamic-security/v1` that the backend sends. -/
inductive Command where
  | getClient (username : Bytes)
  | createClient (username password : Bytes) (roles : List RolePriority)
  | setClientPassword (username password : Bytes)
  | enableClient (username : Bytes)
  | disableClient (username : Bytes)
  | deleteClient (username : Bytes)
  | getRole (rolename : Bytes)
  | createRole (rolename : Bytes) (acls : List Acl)

/-- A response: its `error`, and its `data.client`. -/
structure Answer where
  error : Option Bytes
  client : Option Client

def clientNotFound : Bytes := ascii "Client not found"

def clientAlreadyExists : Bytes := ascii "Client already exists"

def roleNotFound : Bytes := ascii "Role not found"

def roleAlreadyExists : Bytes := ascii "Role already exists"

def Answer.confirmed : Answer := ⟨none, none⟩

def Answer.refused (error : Bytes) : Answer := ⟨some error, none⟩

/-- The accounts by user name, and which roles there are. -/
structure Accounts where
  clients : Bytes → Option Client
  roles : Bytes → Bool

namespace Accounts

def setClient (accounts : Accounts) (username : Bytes) (client : Option Client) : Accounts :=
  { accounts with clients := Function.update accounts.clients username client }

/-- Change or delete an account that there is. -/
def change (accounts : Accounts) (username : Bytes) (f : Client → Option Client) :
    Answer × Accounts :=
  match accounts.clients username with
  | none => (.refused clientNotFound, accounts)
  | some client => (.confirmed, accounts.setClient username (f client))

/-- The plugin's answers and effects, as documented. -/
def documented (accounts : Accounts) : Command → Answer × Accounts
  | .getClient username =>
    match accounts.clients username with
    | none => (.refused clientNotFound, accounts)
    | some client => (⟨none, some client⟩, accounts)
  | .createClient username _ roles =>
    match accounts.clients username with
    | some _ => (.refused clientAlreadyExists, accounts)
    | none =>
      if roles.all fun role => accounts.roles role.rolename then
        (.confirmed, accounts.setClient username (some ⟨roles.map RolePriority.rolename, false⟩))
      else (.refused roleNotFound, accounts)
  | .setClientPassword username _ => accounts.change username some
  | .enableClient username => accounts.change username fun c => some { c with disabled := false }
  | .disableClient username => accounts.change username fun c => some { c with disabled := true }
  | .deleteClient username => accounts.change username fun _ => none
  | .getRole rolename =>
    (if accounts.roles rolename then .confirmed else .refused roleNotFound, accounts)
  | .createRole rolename _ =>
    if accounts.roles rolename then (.refused roleAlreadyExists, accounts)
    else (.confirmed, { accounts with roles := Function.update accounts.roles rolename true })

theorem documented_getClient (accounts : Accounts) (username : Bytes) :
    accounts.documented (.getClient username) =
      (⟨if accounts.clients username = none then some clientNotFound else none,
        accounts.clients username⟩, accounts) := by
  simp only [documented]
  cases accounts.clients username <;> rfl

@[simp] theorem clients_setClient (accounts : Accounts) (username : Bytes)
    (client : Option Client) : (accounts.setClient username client).clients username = client :=
  Function.update_self ..

theorem clients_setClient_ne {accounts : Accounts} {username other : Bytes}
    (h : other ≠ username) (client : Option Client) :
    (accounts.setClient username client).clients other = accounts.clients other :=
  Function.update_of_ne h ..

section Change

variable (accounts : Accounts) (username : Bytes) (f : Client → Option Client)

theorem change_answer : (accounts.change username f).1 =
    if accounts.clients username = none then .refused clientNotFound else .confirmed := by
  unfold change
  cases h : accounts.clients username <;> simp

@[simp] theorem change_clients :
    (accounts.change username f).2.clients username = (accounts.clients username).bind f := by
  unfold change
  cases h : accounts.clients username <;> simp [h]

theorem change_clients_ne {other : Bytes} (h : other ≠ username) :
    (accounts.change username f).2.clients other = accounts.clients other := by
  unfold change
  split
  · rfl
  · exact clients_setClient_ne h _

@[simp] theorem change_roles : (accounts.change username f).2.roles = accounts.roles := by
  unfold change
  split <;> rfl

end Change

end Accounts

/-- A broker with the Dynamic Security plugin; passwords are part of its hidden state. -/
structure DynamicSecurity where
  State : Type
  accounts : State → Accounts
  handle : Command → State → Answer × State
  login : State → Bytes → Bytes → Bool
  handle_documented : ∀ command s,
    ((handle command s).1, accounts (handle command s).2) = (accounts s).documented command

/-- The plugin on its own, in which nobody can log in. -/
def DynamicSecurity.plain : DynamicSecurity where
  State := Accounts
  accounts := id
  handle command accounts := accounts.documented command
  login _ _ _ := false
  handle_documented _ _ := rfl

/-! ## The Registry -/

/-- A gateway, and whether its site is enabled. -/
structure Gateway where
  enabled : Bool
  siteEnabled : Bool

/-- A row of `devices`. -/
structure Device where
  gatewayId : Bytes
  name : Bytes
  enabled : Bool
  passwordHash : Option Bytes
  mqttManaged : Bool
deriving DecidableEq

/-- All that a management call sees. A transaction that has written or locked a device's row holds
it until it ends, with the row as that transaction will leave it. -/
structure World (security : DynamicSecurity) (ι : Type) where
  gateways : Bytes → Option Gateway
  devices : Bytes → Option Device
  held : Bytes → Option (ι × Option Device)
  history : Bytes → Bool
  legacyFile : Bytes
  broker : security.State

/-! ## Requests -/

/-- The places where the code asks the broker, reads its files or commits. -/
inductive Site where
  | commit
  | ensureLookup
  | createLookup
  | disableLookup
  | clearing
  | legacyFile
  | login
  | roleLookup
  | roleCreation
  | creation
  | passwordUpdate
  | enabling
  | disabling
  | compensatingDelete
  | compensatingEnable
  | cleanup
deriving DecidableEq

inductive Outcome where
  | confirmed
  | notApplied
  | unconfirmed
deriving DecidableEq

/-- The exceptions a management call may raise. -/
inductive Failure where
  | gatewayNotFound
  | deviceNotFound
  | invalidDeviceCredentials
  | nameRequired
  | integrityError
  /-- A text that PostgreSQL cannot take. -/
  | dataError
  | commitFailed
  | undecodable
  | brokerUnavailable (message : String)
  | brokerConflict (message : String)
deriving DecidableEq

inductive Request where
  | lockRegistrationGateway (gatewayId : Bytes)
  | createDevice (deviceId : Bytes) (device : Device)
  | lockDevice (deviceId : Bytes)
  | deleteDevice (deviceId : Bytes)
  | setManaged (deviceId : Bytes) (managed : Bool)
  | commit (deviceId : Bytes)
  | rollback (deviceId : Bytes)
  | broker (site : Site) (command : Command)
  | readLegacyFile
  | verifyLogin (username password : Bytes)

@[reducible] def Request.Result : Request → Type
  | lockRegistrationGateway _ => Option Gateway
  | lockDevice _ => Option Device
  | broker _ _ => Answer
  | readLegacyFile => Bytes
  | verifyLogin _ _ => Bool
  | createDevice _ _ | deleteDevice _ | setManaged _ _ | commit _ | rollback _ => Unit

namespace World

variable {security : DynamicSecurity} {ι : Type}

def accounts (w : World security ι) : Accounts := security.accounts w.broker

/-- The account of a user name. -/
def client (w : World security ι) (username : Bytes) : Option Client := w.accounts.clients username

theorem client_congr {w w' : World security ι} (h : w'.accounts = w.accounts) (username : Bytes) :
    w'.client username = w.client username :=
  congrArg (fun accounts : Accounts => accounts.clients username) h

theorem client_of_broker {w w' : World security ι} (h : w'.broker = w.broker) (username : Bytes) :
    w'.client username = w.client username :=
  client_congr (congrArg security.accounts h) username

def send (w : World security ι) (command : Command) : World security ι :=
  { w with broker := (security.handle command w.broker).2 }

def hold (w : World security ι) (i : ι) (deviceId : Bytes) (device : Option Device) :
    World security ι :=
  { w with held := Function.update w.held deviceId (some (i, device)) }

def release (w : World security ι) (deviceId : Bytes) : World security ι :=
  { w with held := Function.update w.held deviceId none }

theorem handle_answer (w : World security ι) (command : Command) :
    (security.handle command w.broker).1 = (w.accounts.documented command).1 :=
  congrArg Prod.fst (security.handle_documented command w.broker)

theorem accounts_send (w : World security ι) (command : Command) :
    (w.send command).accounts = (w.accounts.documented command).2 :=
  congrArg Prod.snd (security.handle_documented command w.broker)

variable [DecidableEq ι]

/-- COMMIT, by the transaction of `i`. -/
def commit (w : World security ι) (i : ι) (deviceId : Bytes) : World security ι :=
  match w.held deviceId with
  | none => w
  | some (j, device) =>
    if j = i then { w with devices := Function.update w.devices deviceId device }.release deviceId
    else w

/-- ROLLBACK, by the transaction of `i`. -/
def rollback (w : World security ι) (i : ι) (deviceId : Bytes) : World security ι :=
  match w.held deviceId with
  | none => w
  | some (j, _) => if j = i then w.release deviceId else w

end World

/-- The driver sends no text with NUL. A password's hash is hexadecimal, so it is not looked at. -/
def storable (deviceId : Bytes) (device : Device) : Bool :=
  !deviceId.contains 0 && !device.gatewayId.contains 0 && !device.name.contains 0

/-- What a lookup answers that finds no row; no row has a name with NUL. -/
def notFound {α : Type} (id : Bytes) : Except Failure (Option α) :=
  if id.contains 0 then .error .dataError else .ok none

theorem notFound_cases (α : Type) (id : Bytes) :
    (notFound id : Except Failure (Option α)) = .ok none ∨
      (notFound id : Except Failure (Option α)) = .error .dataError := by
  unfold notFound
  split
  · exact .inr rfl
  · exact .inl rfl

/-- A request of call `i`. There is no answer while it waits for another transaction. -/
def perform {security : DynamicSecurity} {ι : Type} [DecidableEq ι] (pattern : Site → Outcome)
    (i : ι) : (r : Request) → World security ι →
      Option (Except Failure r.Result × World security ι)
  | .lockRegistrationGateway gatewayId, w =>
    match w.gateways gatewayId with
    | none => some (notFound gatewayId, w)
    | some gateway => some (.ok (some gateway), w)
  | .createDevice deviceId device, w =>
    if storable deviceId device then
      match w.devices deviceId, w.held deviceId with
      | none, none => some (.ok (), w.hold i deviceId (some device))
      -- a duplicate shows at once, unless its deletion is still open
      | some _, none | some _, some (_, some _) => some (.error .integrityError, w)
      | some _, some (_, none) | none, some _ => none
    else some (.error .dataError, w)
  | .lockDevice deviceId, w =>
    match w.devices deviceId, w.held deviceId with
    | none, _ => some (notFound deviceId, w)
    | some device, none => some (.ok (some device), w.hold i deviceId (some device))
    | some _, some _ => none
  | .deleteDevice deviceId, w =>
    if w.history deviceId then some (.error .integrityError, w)
    else some (.ok (), w.hold i deviceId none)
  | .setManaged deviceId managed, w =>
    match w.held deviceId with
    | some (_, some device) =>
      some (.ok (), w.hold i deviceId (some { device with mqttManaged := managed }))
    | _ => some (.ok (), w)
  | .commit deviceId, w =>
    match pattern .commit with
    | .confirmed => some (.ok (), w.commit i deviceId)
    | .notApplied => some (.error .commitFailed, w)
    | .unconfirmed => some (.error .commitFailed, w.commit i deviceId)
  | .rollback deviceId, w => some (.ok (), w.rollback i deviceId)
  | .broker site command, w =>
    match pattern site with
    | .confirmed => some (.ok (security.handle command w.broker).1, w.send command)
    | .notApplied => some (.error (.brokerUnavailable "MQTT broker did not confirm the change"), w)
    | .unconfirmed =>
      some (.error (.brokerUnavailable "MQTT broker did not confirm the change"), w.send command)
  | .readLegacyFile, w =>
    match pattern .legacyFile with
    | .confirmed => some (.ok w.legacyFile, w)
    | _ => some (.error (.brokerUnavailable "MQTT credentials are unavailable"), w)
  | .verifyLogin username password, w =>
    match pattern .login with
    | .confirmed => some (.ok (security.login w.broker username password), w)
    | _ => some (.error (.brokerUnavailable "MQTT broker did not confirm the login"), w)

end EquipmentMonitoring.Devices
