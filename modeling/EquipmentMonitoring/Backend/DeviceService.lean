import EquipmentMonitoring.Backend.DeviceRequests

/-!
# Device Management (`devices/service.py`, `integrations/mqtt.py`)

Registration, removal and the later set-up of a broker account, as programs that ask the database
and the broker. What the code keeps in `broker_created` or `broker_disabled` is what the body of
the transaction returns: the variable is still false when anything in the body raises, and nothing
can raise between its assignment and the commit.
-/

namespace EquipmentMonitoring.Devices

open Program

/-- A program of the service. -/
abbrev Management (α : Type) := Program Request Request.Result Failure α

/-! ## Texts -/

/-- The characters that `str.strip` removes. -/
def whitespace : List Bytes :=
  [[0x09], [0x0A], [0x0B], [0x0C], [0x0D], [0x1C], [0x1D], [0x1E], [0x1F], [0x20], [0xC2, 0x85],
    [0xC2, 0xA0], [0xE1, 0x9A, 0x80], [0xE2, 0x80, 0x80], [0xE2, 0x80, 0x81], [0xE2, 0x80, 0x82],
    [0xE2, 0x80, 0x83], [0xE2, 0x80, 0x84], [0xE2, 0x80, 0x85], [0xE2, 0x80, 0x86],
    [0xE2, 0x80, 0x87], [0xE2, 0x80, 0x88], [0xE2, 0x80, 0x89], [0xE2, 0x80, 0x8A],
    [0xE2, 0x80, 0xA8], [0xE2, 0x80, 0xA9], [0xE2, 0x80, 0xAF], [0xE2, 0x81, 0x9F],
    [0xE3, 0x80, 0x80]]

/-- What ends a line for `str.splitlines`. -/
def lineEnds : List Bytes :=
  [[0x0D, 0x0A], [0x0A], [0x0B], [0x0C], [0x0D], [0x1C], [0x1D], [0x1E], [0xC2, 0x85],
    [0xE2, 0x80, 0xA8], [0xE2, 0x80, 0xA9]]

def stripLeft : Nat → Bytes → Bytes
  | 0, text => text
  | fuel + 1, text =>
    match whitespace.find? fun space => space.isPrefixOf text with
    | some space => stripLeft fuel (text.drop space.length)
    | none => text

def stripRight : Nat → Bytes → Bytes
  | 0, text => text
  | fuel + 1, text =>
    match whitespace.find? fun space => space.isSuffixOf text with
    | some space => stripRight fuel (text.take (text.length - space.length))
    | none => text

/-- `str.strip`; every character that goes shortens the text. -/
def strip (text : Bytes) : Bytes := stripRight text.length (stripLeft text.length text)

/-- The lines of `line` followed by the text. -/
def linesFrom : Nat → Bytes → Bytes → List Bytes
  | 0, _, _ => []
  | fuel + 1, line, text =>
    match lineEnds.find? fun lineEnd => lineEnd.isPrefixOf text with
    | some lineEnd => line :: linesFrom fuel [] (text.drop lineEnd.length)
    | none =>
      match text with
      | b :: rest => linesFrom fuel (line ++ [b]) rest
      | [] => if line.isEmpty then [] else [line]

/-- `str.splitlines`. -/
def splitLines (text : Bytes) : List Bytes := linesFrom (text.length + 1) [] text

/-- `line.partition(":")[0] == username`, for some line. -/
def hasLine (file username : Bytes) : Bool :=
  (splitLines file).any fun line => decide (line.takeWhile (· ≠ 0x3A) = username)

/-! ## The Registry -/

namespace Repository

def lockRegistrationGateway (gatewayId : Bytes) : Management (Option Gateway) :=
  request (Request.lockRegistrationGateway gatewayId)

def createDevice (deviceId : Bytes) (device : Device) : Management Unit :=
  request (Request.createDevice deviceId device)

def lockDevice (deviceId : Bytes) : Management (Option Device) :=
  request (Request.lockDevice deviceId)

def deleteDevice (deviceId : Bytes) : Management Unit := request (Request.deleteDevice deviceId)

/-- `device.mqtt_managed = managed`. -/
def setManaged (deviceId : Bytes) (managed : Bool) : Management Unit :=
  request (Request.setManaged deviceId managed)

end Repository

/-! ## Broker Administration -/

/-- `DEVICE_ROLE`. -/
def deviceRole : Bytes := ascii "iemp-device-publisher"

/-- `DEVICE_ACL`. -/
def deviceAcl : Bytes := ascii "equipment/%u/telemetry"

/-- `_is_managed`. -/
def Client.isManaged (client : Client) : Bool :=
  client.roles.any fun role => decide (role = deviceRole)

namespace BrokerAdmin

/-- `_one`: the answer, if the broker confirms the change. -/
def one (site : Site) (command : Command) : Management Answer :=
  request (Request.broker site command)

def readLegacyFile : Management Bytes := request Request.readLegacyFile

def verifyLogin (username password : Bytes) : Management Bool :=
  request (Request.verifyLogin username password)

def legacyAccountExists (username : Bytes) : Management Bool := do
  let file ← readLegacyFile
  if Utf8.valid file then return hasLine file username
  else raise .undecodable

def getClient (site : Site) (username : Bytes) : Management (Option Client) := do
  let response ← one site (.getClient username)
  if response.error = some clientNotFound then return none
  else if response.error.isSome then raise (.brokerUnavailable "MQTT account lookup failed")
  else
    match response.client with
    | none => raise (.brokerUnavailable "Invalid MQTT account response")
    | some client => return some client

def ensureRole : Management Unit := do
  let response ← one .roleLookup (.getRole deviceRole)
  if response.error = none then return ()
  else if response.error ≠ some roleNotFound then
    raise (.brokerUnavailable "MQTT role lookup failed")
  else
    let created ← one .roleCreation
      (.createRole deviceRole [⟨ascii "publishClientSend", deviceAcl, 1, true⟩])
    -- another registration may have created the role in between
    if created.error = none ∨ created.error = some roleAlreadyExists then return ()
    else raise (.brokerUnavailable "MQTT role creation failed")

def enableDevice (site : Site) (deviceId : Bytes) : Management Unit := do
  let response ← one site (.enableClient deviceId)
  if response.error.isSome then raise (.brokerUnavailable "MQTT account enable failed")
  else return ()

def deleteDevice (site : Site) (deviceId : Bytes) : Management Unit := do
  let response ← one site (.deleteClient deviceId)
  if response.error = none ∨ response.error = some clientNotFound then return ()
  else raise (.brokerUnavailable "MQTT account removal failed")

/-- The end of `create_device`: the account, once nothing is in its way. -/
def createAccount (deviceId password : Bytes) : Management Bool := do
  if ← legacyAccountExists deviceId then
    -- an account of the password file is used as it is, and is not managed
    if ← verifyLogin deviceId password then return false
    else raise (.brokerConflict "Existing MQTT account uses a different password")
  else
    ensureRole
    let response ← one .creation (.createClient deviceId password [⟨deviceRole, 1⟩])
    if response.error = some clientAlreadyExists then
      raise (.brokerConflict "An MQTT account already uses this Device ID")
    else if response.error.isSome then
      raise (.brokerUnavailable "MQTT account creation failed")
    else return true

/-- `BrokerAdmin.create_device`: whether a new managed account was created. -/
def createDevice (deviceId password : Bytes) : Management Bool := do
  match ← getClient .createLookup deviceId with
  | none => createAccount deviceId password
  | some existing =>
    if existing.disabled && existing.isManaged then
      deleteDevice .clearing deviceId
      createAccount deviceId password
    else raise (.brokerConflict "An MQTT account already uses this Device ID")

/-- `BrokerAdmin.ensure_device`. -/
def ensureDevice (deviceId password : Bytes) : Management Bool := do
  match ← getClient .ensureLookup deviceId with
  | none => createDevice deviceId password
  | some existing =>
    if existing.isManaged then
      let response ← one .passwordUpdate (.setClientPassword deviceId password)
      if response.error.isSome then raise (.brokerUnavailable "MQTT password update failed")
      else if existing.disabled then
        -- an account disabled by a removal is taken up again
        enableDevice .enabling deviceId
        return true
      else return true
    else raise (.brokerConflict "An MQTT account already uses this Device ID")

/-- `BrokerAdmin.disable_device`. -/
def disableDevice (deviceId : Bytes) : Management Bool := do
  match ← getClient .disableLookup deviceId with
  | none => return false
  | some existing =>
    if existing.isManaged then
      let response ← one .disabling (.disableClient deviceId)
      if response.error.isSome then raise (.brokerUnavailable "MQTT account disable failed")
      else return true
    else raise (.brokerConflict "MQTT account is not managed by device registration")

end BrokerAdmin

/-! ## The Service -/

/-- `DeviceRegistration`. -/
structure DeviceRegistration where
  deviceId : Bytes
  gatewayId : Bytes
  name : Bytes
  password : Bytes

/-- What registration answers; such a device has not been seen and has no reading. -/
structure DeviceStatus where
  deviceId : Bytes
  gatewayId : Bytes
  name : Bytes
  enabled : Bool
  online : Bool

/-- `hash_password`, with the salt it draws, and `verify_password`. -/
structure Credentials where
  hashPassword : Bytes → Bytes → Bytes
  verifyPassword : Bytes → Option Bytes → Bool

/-- Passwords stored as they are. -/
def Credentials.plain : Credentials where
  hashPassword _ password := password
  verifyPassword password stored := decide (stored = some password)

/-- `with Session(engine) as session, session.begin()`: the body's result and how the commit
ended; an exception in the body rolls back and goes on. -/
def transaction {α : Type} (deviceId : Bytes) (body : Management α) :
    Management (α × Except Failure Unit) :=
  body.andThen fun
    | .error failure => do
      request (Request.rollback deviceId)
      raise failure
    | .ok a => (request (Request.commit deviceId)).andThen fun
      | .error failure => do
        request (Request.rollback deviceId)
        return (a, .error failure)
      | .ok _ => return (a, .ok ())

/-- `except BrokerUnavailable`: a warning in the log. -/
def unlessUnavailable (p : Management Unit) : Management Unit :=
  p.handled fun
    | .brokerUnavailable _ => return ()
    | failure => raise failure

/-- The body of `register_device`. -/
def registration (credentials : Credentials) (salt : Bytes) (r : DeviceRegistration) :
    Management Bool := do
  match ← Repository.lockRegistrationGateway r.gatewayId with
  | none => raise .gatewayNotFound
  | some gateway =>
    if !gateway.enabled || !gateway.siteEnabled then raise .gatewayNotFound
    else if (strip r.name).isEmpty then raise .nameRequired
    else
      -- the row is flushed unmanaged before the broker is asked
      Repository.createDevice r.deviceId
        ⟨r.gatewayId, strip r.name, true, some (credentials.hashPassword salt r.password), false⟩
      let brokerCreated ← BrokerAdmin.createDevice r.deviceId r.password
      Repository.setManaged r.deviceId brokerCreated
      return brokerCreated

def registerDevice (credentials : Credentials) (salt : Bytes) (r : DeviceRegistration) :
    Management DeviceStatus := do
  let (brokerCreated, committed) ← transaction r.deviceId (registration credentials salt r)
  match committed with
  | .error failure =>
    -- the commit failed: only an account that this call created is deleted
    if brokerCreated then
      unlessUnavailable (BrokerAdmin.deleteDevice .compensatingDelete r.deviceId)
      raise failure
    else raise failure
  | .ok _ => return ⟨r.deviceId, r.gatewayId, strip r.name, true, false⟩

/-- The body of `remove_device`. -/
def removal (deviceId : Bytes) : Management Bool := do
  match ← Repository.lockDevice deviceId with
  | none => raise .deviceNotFound
  | some device =>
    Repository.deleteDevice deviceId
    if device.mqttManaged then BrokerAdmin.disableDevice deviceId else return false

def removeDevice (deviceId : Bytes) : Management Unit := do
  let (brokerDisabled, committed) ← transaction deviceId (removal deviceId)
  match committed with
  | .error failure =>
    if brokerDisabled then
      unlessUnavailable (BrokerAdmin.enableDevice .compensatingEnable deviceId)
      raise failure
    else raise failure
  | .ok _ =>
    -- a disabled orphan cannot connect; a later registration clears it
    if brokerDisabled then unlessUnavailable (BrokerAdmin.deleteDevice .cleanup deviceId) else return ()

/-- The body of `configure_existing_mqtt`. -/
def configuration (credentials : Credentials) (deviceId password : Bytes) : Management Unit := do
  match ← Repository.lockDevice deviceId with
  | none => raise .invalidDeviceCredentials
  | some device =>
    if credentials.verifyPassword password device.passwordHash then
      let managed ← BrokerAdmin.ensureDevice deviceId password
      Repository.setManaged deviceId managed
    else raise .invalidDeviceCredentials

def configureExistingMqtt (credentials : Credentials) (deviceId password : Bytes) :
    Management Unit := do
  let (_, committed) ← transaction deviceId (configuration credentials deviceId password)
  done committed

/-! ## Calls -/

/-- A management call, a registration with the salt of its password hash. -/
inductive Call where
  | register (salt : Bytes) (r : DeviceRegistration)
  | remove (deviceId : Bytes)
  | configure (deviceId password : Bytes)

def Call.deviceId : Call → Bytes
  | register _ r => r.deviceId
  | remove deviceId => deviceId
  | configure deviceId _ => deviceId

def Call.program (credentials : Credentials) : Call → Management (Option DeviceStatus)
  | register salt r => do return some (← registerDevice credentials salt r)
  | remove deviceId => do
    removeDevice deviceId
    return none
  | configure deviceId password => do
    configureExistingMqtt credentials deviceId password
    return none

end EquipmentMonitoring.Devices
