import EquipmentMonitoring.Firmware.Encoding

/-!
# Device Configuration (`app_config.c`)

The settings a firmware was built with are checked once, before anything uses them. A setting that
is refused is named in the log.
-/

namespace EquipmentMonitoring.Firmware

/-- `app_config_t`; the key of the web form is there in builds that have the form. -/
structure AppConfig where
  deviceId : CString
  wifiSsid : CString
  wifiPassword : CString
  mqttHost : CString
  mqttPort : Int
  mqttPassword : CString
  backendHost : CString
  backendPort : Int
  webInputKey : Option CString

/-- `strpbrk(text, "/+#")`. -/
def hasTopicCharacter (text : Bytes) : Bool := text.any fun b => b == 0x2F || b == 0x2B || b == 0x23

def isDeviceId (text : Bytes) : Bool :=
  !text.isEmpty && decide (text.length ≤ 128) && !hasTopicCharacter text &&
    text.all fun b => decide (0x20 ≤ b) && b != 0x7F

def lengthWithin (low high : Nat) (value : CString) : Bool :=
  decide (low ≤ value.text.length) && decide (value.text.length ≤ high)

def isWebInputKey (value : CString) : Bool :=
  lengthWithin 8 63 value && value.text.all fun b => decide (0x21 ≤ b) && decide (b ≤ 0x7E)

/-- A setting in order, or its name. -/
def requireField (condition : Bool) (field : String) : Except String Unit :=
  if condition then .ok () else .error field

/-- `app_config_load` for the settings of a build. -/
def appConfigLoad (settings : AppConfig) : Except String AppConfig := do
  requireField (isDeviceId settings.deviceId.text) "device_id"
  requireField (lengthWithin 1 32 settings.wifiSsid) "wifi_ssid"
  requireField (lengthWithin 8 63 settings.wifiPassword) "wifi_password"
  requireField (lengthWithin 1 253 settings.mqttHost) "mqtt_host"
  requireField (!settings.mqttPassword.text.isEmpty) "mqtt_password"
  -- an empty backend_host turns the heartbeat off
  requireField (lengthWithin 0 253 settings.backendHost) "backend_host"
  requireField (settings.webInputKey.all isWebInputKey) "web_input_key"
  return settings

@[simp] theorem requireField_eq_ok {condition : Bool} {field : String} {u : Unit} :
    requireField condition field = .ok u ↔ condition = true := by
  cases condition <;> simp [requireField]

/-- A configuration is loaded as it was built, if every setting is in order. -/
theorem appConfigLoad_eq_ok {settings config : AppConfig} (h : appConfigLoad settings = .ok config) :
    config = settings ∧ isDeviceId config.deviceId.text = true := by
  simp only [appConfigLoad, except_bind_eq_ok, requireField_eq_ok] at h
  obtain ⟨_, hdevice, _, -, _, -, _, -, _, -, _, -, _, -, hconfig⟩ := h
  obtain rfl := except_pure_eq_ok.mp hconfig
  exact ⟨rfl, hdevice⟩

/-- The name of the backend of a loaded configuration is no longer than a host name can be. -/
theorem appConfigLoad_backendHost {settings config : AppConfig}
    (h : appConfigLoad settings = .ok config) : config.backendHost.text.length ≤ 253 := by
  obtain ⟨rfl, -⟩ := appConfigLoad_eq_ok h
  simp only [appConfigLoad, except_bind_eq_ok, requireField_eq_ok, lengthWithin, Bool.and_eq_true,
    decide_eq_true_eq] at h
  obtain ⟨_, -, _, -, _, -, _, -, _, -, _, hhost, -⟩ := h
  exact hhost.2

/-- What the checks say of a device id. -/
structure DeviceIdText (text : Bytes) : Prop where
  nonempty : text ≠ []
  length : text.length ≤ 128
  oneLevel : ∀ b ∈ text, b ≠ 0x2F ∧ b ≠ 0x2B ∧ b ≠ 0x23
  printable : ∀ b ∈ text, 0x20 ≤ b ∧ b ≠ 0x7F

theorem deviceIdText {text : Bytes} (h : isDeviceId text = true) : DeviceIdText text := by
  simp only [isDeviceId, hasTopicCharacter, Bool.and_eq_true, Bool.not_eq_true',
    List.isEmpty_eq_false_iff, decide_eq_true_eq, List.any_eq_false, List.all_eq_true,
    Bool.or_eq_true, beq_iff_eq, bne_iff_ne, not_or] at h
  obtain ⟨⟨⟨hne, hlength⟩, hlevel⟩, hprintable⟩ := h
  exact ⟨hne, hlength, fun b hb => ⟨(hlevel b hb).1.1, (hlevel b hb).1.2, (hlevel b hb).2⟩, hprintable⟩

end EquipmentMonitoring.Firmware
