import EquipmentMonitoring.Foundations.Json.Reports
import EquipmentMonitoring.Gateway.Decisions

/-!
# What the Parser Callbacks Let Through

The gateway parses in two places with a callback, messages up to depth 4 and responses up to
depth 3. Each callback keeps one table of keys for all objects of the text. The law of both is
stated on the syntax tree, where neither the table nor the order of reports appears.

## Key Results

- `tracked_ok_iff`: a text passes a callback exactly when its tree is shallow and its objects have
  distinct keys
- `strict_parsing_exact`: the law for `parse_strict` and for the parse step of `parse_decisions`
-/

namespace EquipmentMonitoring.Forwarder

open EquipmentMonitoring.Json EquipmentMonitoring.Store EquipmentMonitoring.Telemetry

section Library

variable [Nlohmann.Library]

/-- `text` is JSON for `v`, with no value nested deeper than `limit` and no key twice in an
object. -/
def StrictlyDenotes (limit : Nat) (text : Bytes) (v : Value) : Prop :=
  ∃ doc, Nlohmann.parse text = some doc ∧ DepthAtMost limit doc.value ∧ DistinctKeys doc.value ∧
    doc.value.value = v

/-- The callback's verdict on a text that parses is one on its tree. -/
theorem tracked_ok_iff {limit : Nat} {text : Bytes} {doc : Element Tree}
    (hdoc : Nlohmann.parse text = some doc) :
    (∃ keys, trackAll limit [] (Nlohmann.read text).reports = .ok keys) ↔
      DepthAtMost limit doc.value ∧ DistinctKeys doc.value := by
  have hreports : (Nlohmann.read text).reports = doc.value.events 0 :=
    Nlohmann.read_reports hdoc
  rw [hreports, track_ok_iff, depthAtMost_iff, uniqueKeys_iff]

/-! ## The Parse Step of a Response -/

/-- `parse_decisions` up to its envelope checks. -/
def parseResponse (body : Bytes) : Except String Value := do
  let parsed := Nlohmann.read body
  let _ ← (trackAll 3 [] parsed.reports).mapError responseFault
  match parsed.result with
  | none => throw "parse error"
  | some doc => return doc.value.value

/-- A response is parsed, then checked against the claimed rows. -/
theorem parseDecisions_parseResponse (body : Bytes) (claimed : List QueuedEvent) :
    parseDecisions body claimed = (do
      let response ← parseResponse body
      let results ← envelopeResults response claimed.length
      (claimed.zip results).mapM fun p => parseItem p.2 p.1.event) := by
  simp only [parseDecisions, parseResponse]
  generalize (trackAll 3 [] (Nlohmann.read body).reports).mapError responseFault = tracked
  cases tracked with
  | error what => rfl
  | ok keys => cases (Nlohmann.read body).result <;> rfl

theorem parseResponse_eq_ok_iff {body : Bytes} {v : Value} :
    parseResponse body = .ok v ↔ StrictlyDenotes 3 body v := by
  simp only [parseResponse, except_bind_eq_ok, except_mapError_eq_ok]
  constructor
  · rintro ⟨keys, hkeys, h⟩
    split at h
    · simp at h
    · next doc hdoc =>
      -- the callback of the parser has seen the depth and every name
      obtain ⟨hdepth, hdistinct⟩ := (tracked_ok_iff hdoc).mp ⟨keys, hkeys⟩
      exact ⟨doc, hdoc, hdepth, hdistinct, except_pure_eq_ok.mp h⟩
  · rintro ⟨doc, hdoc, hdepth, hdistinct, rfl⟩
    obtain ⟨keys, hkeys⟩ := (tracked_ok_iff hdoc).mpr ⟨hdepth, hdistinct⟩
    have hresult : (Nlohmann.read body).result = some doc := hdoc
    exact ⟨keys, hkeys, by rw [hresult]; rfl⟩

/-! ## The Law -/

/-- Both parsers return a value for exactly the texts that denote it strictly. -/
theorem strict_parsing_exact :
    (∀ payload v, parseStrict payload = .ok v ↔ StrictlyDenotes 4 payload v) ∧
    (∀ body v, parseResponse body = .ok v ↔ StrictlyDenotes 3 body v) ∧
    ∀ body claimed, parseDecisions body claimed = (do
      let response ← parseResponse body
      let results ← envelopeResults response claimed.length
      (claimed.zip results).mapM fun p => parseItem p.2 p.1.event) := by
  refine ⟨fun payload v => ?_, fun body v => parseResponse_eq_ok_iff,
    parseDecisions_parseResponse⟩
  simp only [parseStrict_eq_ok_iff, depthAtMost_iff, uniqueKeys_iff, StrictlyDenotes]

end Library

/-! ## Two Texts -/

/-- Siblings may share keys. -/
def siblingKeys : Bytes := ascii "[\x7b\"a\":\x7b\"b\":1\x7d\x7d,\x7b\"a\":\x7b\"b\":2\x7d\x7d]"

/-- An escaped key is the key it denotes. -/
def escapedKey : Bytes := ascii "\x7b\"a\":1,\"\\u0061\":2\x7d"

theorem parseStrict_isOk :
    (parseStrict siblingKeys).isOk = true ∧ (parseStrict escapedKey).isOk = false := by
  decide +kernel

theorem strict_parsing_exact_sample :
    (∃ v, StrictlyDenotes 4 siblingKeys v) ∧ ∀ v, ¬ StrictlyDenotes 4 escapedKey v := by
  obtain ⟨hsiblings, hescaped⟩ := parseStrict_isOk
  constructor
  · cases h : parseStrict siblingKeys with
    | error thrown => simp [h, Except.isOk, Except.toBool] at hsiblings
    | ok v => exact ⟨v, (strict_parsing_exact.1 _ _).mp h⟩
  · intro v hv
    rw [(strict_parsing_exact.1 _ _).mpr hv] at hescaped
    exact absurd hescaped Bool.true_eq_false.mp

end EquipmentMonitoring.Forwarder
