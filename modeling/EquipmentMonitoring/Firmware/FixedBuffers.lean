import EquipmentMonitoring.Firmware.Publisher
import EquipmentMonitoring.Foundations.Escaping

/-!
# Buffers of Fixed Size (`heartbeat.c`, `web_input.c`)

The device id goes into four buffers, each time as another text: as it is into the topic, as a JSON
string into the payload, with percent codes into the address of the heartbeat, and with character
references into the page of the web form. Each buffer has a size of its own, and a check of its own.

## Key Results

- `encodeDeviceUrl_eq`: the address of a loaded configuration fits
- `percentDecode_codes`, `lastSegmentButOne_deviceUrl`: and names the device
- `htmlEscape_eq`, `decodeEntities_escaped`: the text in the page fits, and shows the device id
- `buffers_fit`: every text of a loaded configuration fits its buffer
-/

namespace EquipmentMonitoring.Firmware

/-! ## The Address of the Heartbeat -/

/-- `sizeof(s_url)`. -/
def urlSize : Nat := 768

/-- `sizeof("/heartbeat")`. -/
def heartbeatSize : Nat := 11

/-- `%d`. -/
def intDecimal (i : Int) : Bytes :=
  if i < 0 then 0x2D :: decimal i.natAbs else decimal i.natAbs

/-- `safe`: the octets that stand for themselves in an address. -/
def isUnreserved (b : UInt8) : Bool :=
  decide (0x41 ≤ b ∧ b ≤ 0x5A) || decide (0x61 ≤ b ∧ b ≤ 0x7A) || decide (0x30 ≤ b ∧ b ≤ 0x39) ||
    b == 0x2D || b == 0x5F || b == 0x2E || b == 0x7E

/-- `hex[n]`. -/
def upperHex (n : UInt8) : UInt8 := (ascii "0123456789ABCDEF").getD n.toNat 0

/-- An octet as it stands in an address. -/
def percentEncoded (b : UInt8) : Bytes :=
  if isUnreserved b then [b] else [0x25, upperHex (b >>> 4), upperHex (b &&& 0x0F)]

/-- The address up to the device id. -/
def urlPrefix (config : AppConfig) : Bytes :=
  ascii "http://" ++ config.backendHost.text ++ ascii ":" ++ intDecimal config.backendPort ++
    ascii "/api/v1/devices/"

/-- `encode_device_url`: the address, if it fits. -/
def encodeDeviceUrl (capacity : Nat) (config : AppConfig) : Option Bytes :=
  if capacity ≤ (urlPrefix config).length then none
  else do
    let url ← fill percentEncoded heartbeatSize capacity config.deviceId.text (urlPrefix config)
    return url ++ ascii "/heartbeat"

/-- The address of a device. -/
def deviceUrl (config : AppConfig) : Bytes :=
  urlPrefix config ++ config.deviceId.text.flatMap percentEncoded ++ ascii "/heartbeat"

theorem percentEncoded_length_le (b : UInt8) : (percentEncoded b).length ≤ 3 := by
  unfold percentEncoded
  split <;> simp

theorem hexPairValue_upperHex (b : UInt8) :
    hexPairValue (upperHex (b >>> 4)) (upperHex (b &&& 0x0F)) = some b := by
  have hall := Utf8.forall_octet
    (p := fun b => hexPairValue (upperHex (b >>> 4)) (upperHex (b &&& 0x0F)) == some b)
    (by decide +kernel) b
  exact eq_of_beq hall

theorem percentDecode_percentEncoded (b : UInt8) (rest : Bytes) :
    percentDecode (percentEncoded b ++ rest) = (percentDecode rest).map (b :: ·) := by
  unfold percentEncoded
  split
  · next hsafe =>
    have hpercent : b ≠ 0x25 := by
      rintro rfl
      exact absurd hsafe (by decide)
    exact percentDecode_plain hpercent rest
  · exact percentDecode_code (hexPairValue_upperHex b) rest

/-- Percent codes are read back. -/
theorem percentDecode_codes (text : Bytes) :
    percentDecode (text.flatMap percentEncoded) = some text :=
  decode_flatMap (by simp [percentDecode]) percentDecode_percentEncoded text

/-- No code holds a slash. -/
theorem slash_notMem_percentEncoded (b : UInt8) : 0x2F ∉ percentEncoded b := by
  have hall := Utf8.forall_octet (p := fun b => decide (0x2F ∉ percentEncoded b))
    (by decide +kernel) b
  exact of_decide_eq_true hall

theorem length_intDecimal_port {port : Int} (h : 1 ≤ port ∧ port ≤ 65535) :
    (intDecimal port).length ≤ 5 := by
  rw [intDecimal, if_neg (by omega)]
  exact length_decimal (by decide) (by omega)

/-- The parts of an address, between its slashes. -/
def urlSegments (url : Bytes) : List Bytes := url.splitOn 0x2F

/-- The last part but one. -/
def lastSegmentButOne (url : Bytes) : Option Bytes := (urlSegments url).dropLast.getLast?

/-- The address up to the slash before the device id. -/
def urlStart (config : AppConfig) : Bytes :=
  ascii "http://" ++ config.backendHost.text ++ ascii ":" ++ intDecimal config.backendPort ++
    ascii "/api/v1/devices"

/-- The last part but one of an address is the device id with percent codes. -/
theorem lastSegmentButOne_deviceUrl (config : AppConfig) :
    lastSegmentButOne (deviceUrl config) = some (config.deviceId.text.flatMap percentEncoded) := by
  -- A percent-encoded id has no slash, so it stays one segment.
  have hslash : 0x2F ∉ config.deviceId.text.flatMap percentEncoded := by
    intro h
    obtain ⟨b, -, hb⟩ := List.mem_flatMap.mp h
    exact slash_notMem_percentEncoded b hb
  have hurl : deviceUrl config = urlStart config ++ 0x2F ::
      (config.deviceId.text.flatMap percentEncoded ++ 0x2F :: ascii "heartbeat") := by
    have hpath : ascii "/api/v1/devices/" = ascii "/api/v1/devices" ++ [0x2F] := by decide
    have hend : ascii "/heartbeat" = 0x2F :: ascii "heartbeat" := by decide
    simp only [deviceUrl, urlPrefix, urlStart, hpath, hend, List.append_assoc, List.cons_append,
      List.nil_append]
  have hlast : (ascii "heartbeat").splitOn 0x2F = [ascii "heartbeat"] :=
    List.splitOn_eq_singleton (by decide)
  rw [lastSegmentButOne, urlSegments, hurl, List.splitOn_append_cons_self,
    List.splitOn_append_cons_self_of_not_mem hslash, hlast,
    List.dropLast_append_of_ne_nil (by simp)]
  exact List.getLast?_concat ..

section Loaded

variable {settings config : AppConfig} (hconfig : appConfigLoad settings = .ok config)
  (hport : 1 ≤ config.backendPort ∧ config.backendPort ≤ 65535)

include hconfig hport

theorem length_urlPrefix : (urlPrefix config).length ≤ 282 := by
  have hhost := appConfigLoad_backendHost hconfig
  have hdigits := length_intDecimal_port hport
  have hscheme : (ascii "http://").length = 7 := rfl
  have hcolon : (ascii ":").length = 1 := rfl
  have hpath : (ascii "/api/v1/devices/").length = 16 := rfl
  simp only [urlPrefix, List.length_append, hscheme, hcolon, hpath]
  omega

theorem length_deviceUrl : (deviceUrl config).length < urlSize := by
  obtain ⟨-, hlength, -, -⟩ := deviceIdText (appConfigLoad_eq_ok hconfig).2
  have hstart := length_urlPrefix hconfig hport
  have hcodes := length_flatMap_le fun b (_ : b ∈ config.deviceId.text) => percentEncoded_length_le b
  have hend : (ascii "/heartbeat").length = 10 := rfl
  rw [deviceUrl, List.length_append, List.length_append, hend, urlSize]
  omega

/-- The address of a loaded configuration fits its buffer. -/
theorem encodeDeviceUrl_eq : encodeDeviceUrl urlSize config = some (deviceUrl config) := by
  have hstart := length_urlPrefix hconfig hport
  have hlength := length_deviceUrl hconfig hport
  have hend : (ascii "/heartbeat").length = 10 := rfl
  rw [deviceUrl, List.length_append, hend] at hlength
  have hfill : fill percentEncoded heartbeatSize urlSize config.deviceId.text (urlPrefix config) =
      some (urlPrefix config ++ config.deviceId.text.flatMap percentEncoded) := by
    refine (fill_eq_some ?_).mpr ⟨rfl, ?_⟩
    · rw [heartbeatSize, urlSize]
      omega
    · rw [heartbeatSize]
      omega
  rw [encodeDeviceUrl, if_neg (by rw [urlSize]; omega), hfill]
  rfl

end Loaded

/-! ## The Page of the Web Form -/

/-- `sizeof(s_device_id_html)`. -/
def deviceIdHtmlSize : Nat := 128 * 6 + 1

/-- The replacement of an octet, or the octet. -/
def htmlEscaped (b : UInt8) : Bytes :=
  if b = 0x26 then ascii "&amp;"
  else if b = 0x3C then ascii "&lt;"
  else if b = 0x3E then ascii "&gt;"
  else if b = 0x22 then ascii "&quot;"
  else if b = 0x27 then ascii "&#39;"
  else [b]

/-- `html_escape`: the text, if it fits with its terminating zero. -/
def htmlEscape (outputSize : Nat) (input : Bytes) : Option Bytes :=
  fill htmlEscaped 1 outputSize input []

/-- The octets that have a meaning in markup, besides the ampersand of a reference. -/
def isMarkup (b : UInt8) : Bool := b == 0x3C || b == 0x3E || b == 0x22 || b == 0x27

theorem htmlEscaped_length_le (b : UInt8) : (htmlEscaped b).length ≤ 6 := by
  have hall := Utf8.forall_octet (p := fun b => decide ((htmlEscaped b).length ≤ 6))
    (by decide +kernel) b
  exact of_decide_eq_true hall

theorem htmlEscaped_noMarkup (b : UInt8) : (htmlEscaped b).all (!isMarkup ·) = true :=
  Utf8.forall_octet (p := fun b => (htmlEscaped b).all (!isMarkup ·)) (by decide +kernel) b

theorem decodeEntities_htmlEscaped (b : UInt8) (rest : Bytes) :
    decodeEntities (htmlEscaped b ++ rest) = (decodeEntities rest).map (b :: ·) := by
  unfold htmlEscaped
  split_ifs with hamp hlt hgt hquot hapos
  · exact hamp ▸ @decodeEntities_reference (ascii "amp") _ (by decide) rfl rest
  · exact hlt ▸ @decodeEntities_reference (ascii "lt") _ (by decide) rfl rest
  · exact hgt ▸ @decodeEntities_reference (ascii "gt") _ (by decide) rfl rest
  · exact hquot ▸ @decodeEntities_reference (ascii "quot") _ (by decide) rfl rest
  · exact hapos ▸ @decodeEntities_reference (ascii "#39") _ (by decide) rfl rest
  · exact decodeEntities_plain hamp rest

/-- A browser shows the text that was escaped. -/
theorem decodeEntities_escaped (text : Bytes) :
    decodeEntities (text.flatMap htmlEscaped) = some text :=
  decode_flatMap (by simp [decodeEntities, decodeReference]) decodeEntities_htmlEscaped text

theorem length_htmlEscaped {text : Bytes} (h : text.length ≤ 128) :
    (text.flatMap htmlEscaped).length < deviceIdHtmlSize := by
  have hcodes := length_flatMap_le fun b (_ : b ∈ text) => htmlEscaped_length_le b
  rw [deviceIdHtmlSize]
  omega

/-- A device id of any allowed length fits, with a terminating zero. -/
theorem htmlEscape_eq {text : Bytes} (h : text.length ≤ 128) :
    htmlEscape deviceIdHtmlSize text = some (text.flatMap htmlEscaped) :=
  (fill_eq_some (by decide)).mpr ⟨rfl, length_htmlEscaped h⟩

/-- What is shown of a text is no markup. -/
theorem noMarkup_htmlEscaped (text : Bytes) : ∀ b ∈ text.flatMap htmlEscaped, isMarkup b = false := by
  intro b hb
  obtain ⟨c, -, hc⟩ := List.mem_flatMap.mp hb
  exact Bool.not_eq_true' _ ▸ List.all_eq_true.mp (htmlEscaped_noMarkup c) b hc

/-! ## Every Text Fits -/

/-- Every text of a configuration that is loaded fits its buffer. -/
theorem buffers_fit (settings config : AppConfig)
    (hconfig : appConfigLoad settings = .ok config)
    (hport : 1 ≤ config.backendPort ∧ config.backendPort ≤ 65535) :
    -- the topic
    (∃ topic, telemetryTopic config.deviceId.text = some topic ∧ topic.length < topicSize) ∧
    -- the payload of any reading that got into the queue
    (∀ (mac : Mac) (calls : BootCalls) (stored stored' : Option UInt64) (bootId : CString),
      bootIdCreate mac calls stored = (.ok bootId.text, stored') →
      ∀ (ackRetryTicks : UInt32) (identity : IdentityContext) (actions : List Action),
        (∀ action ∈ actions, action.InRange) →
        let device : Device := ⟨config.deviceId, bootId, ackRetryTicks⟩
        ∀ reading ∈ ((System.start identity).run device actions).accepted,
          ∃ w, telemetryEncode (eventOf config.deviceId bootId reading) payloadSize = .ok w ∧
            w.text.length < payloadSize) ∧
    -- the address of the heartbeat, which names the device
    (∃ url segment, encodeDeviceUrl urlSize config = some url ∧ url.length < urlSize ∧
      lastSegmentButOne url = some segment ∧ percentDecode segment = some config.deviceId.text) ∧
    -- the page of the web form, which shows the device id
    (∃ html, htmlEscape deviceIdHtmlSize config.deviceId.text = some html ∧
      html.length < deviceIdHtmlSize ∧ (∀ b ∈ html, isMarkup b = false) ∧
      decodeEntities html = some config.deviceId.text) := by
  obtain ⟨rfl, hdevice⟩ := appConfigLoad_eq_ok hconfig
  obtain ⟨-, hlength, -, -⟩ := deviceIdText hdevice
  refine ⟨?topic, ?payload, ?url, ?html⟩
  case topic =>
    refine ⟨_, telemetryTopic_eq hlength, ?_⟩
    have hbefore : (ascii "equipment/").length = 10 := rfl
    have hafter : (ascii "/telemetry").length = 10 := rfl
    rw [List.length_append, List.length_append, hbefore, hafter, topicSize]
    omega
  case payload =>
    intro mac calls stored stored' bootId hboot ackRetryTicks identity actions hrange device
      reading hreading
    obtain ⟨counter, hbootText⟩ := bootIdCreate_eq_ok hboot
    obtain rfl : bootId = bootIdString mac counter := CString.ext hbootText
    have hsound := run_sound hdevice rfl (start_sound device identity) hrange
    obtain ⟨celsius, hsubmitted⟩ := hsound.submitted reading hreading
    refine ⟨_, telemetryEncode_reading hdevice hsubmitted, ?_⟩
    rw [holding_text (encoding_noNul _ _)]
    exact length_encoding_reading hdevice hsubmitted
  case url =>
    exact ⟨_, _, encodeDeviceUrl_eq hconfig hport, length_deviceUrl hconfig hport,
      lastSegmentButOne_deviceUrl config, percentDecode_codes _⟩
  case html =>
    exact ⟨_, htmlEscape_eq hlength, length_htmlEscaped hlength, noMarkup_htmlEscaped _,
      decodeEntities_escaped _⟩

theorem buffers_fit_sample :
    let device : Device := ⟨sampleSettings.deviceId, bootIdString sampleMac 8, 30000⟩
    let s := (System.start ⟨bootIdText sampleMac 8, 0⟩).run device sampleActions
    (∀ reading ∈ s.accepted, ∃ w,
      telemetryEncode (eventOf sampleSettings.deviceId (bootIdString sampleMac 8) reading)
        payloadSize = .ok w ∧ w.text.length < payloadSize) ∧
    ∃ html, htmlEscape deviceIdHtmlSize sampleSettings.deviceId.text = some html ∧
      decodeEntities html = some sampleSettings.deviceId.text := by
  obtain ⟨-, hpayload, -, html, hhtml, -, -, hdecode⟩ :=
    buffers_fit sampleSettings sampleSettings rfl (by decide)
  exact ⟨hpayload sampleMac sampleBoot (some 7) (some 8) (bootIdString sampleMac 8) rfl 30000
    ⟨bootIdText sampleMac 8, 0⟩ sampleActions sampleActions_inRange, html, hhtml, hdecode⟩

end EquipmentMonitoring.Firmware
