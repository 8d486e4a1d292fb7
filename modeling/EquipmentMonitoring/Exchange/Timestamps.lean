import EquipmentMonitoring.Backend.Validation
import EquipmentMonitoring.Gateway.Timestamps

/-!
# One Timestamp, Two Validators

The gateway checks a measurement time with a regular expression and arithmetic on fixed positions;
the backend with a pattern of its own, pydantic's parser and a conversion to UTC. The grammar is
written down once, in terms of the fields a text spells, and both sides are compared with it.
Pydantic's parser is a parameter: `Pydantic` holds what is documented of it.

## Key Results

- `validMeasuredAt_iff`: the gateway accepts exactly the texts of the grammar
- `timestamp_eq_ok`: the backend's three stages together are `readTimestamp`
- `timestamps_agree`: what the gateway accepts gets through all of the backend except, where the
  instant is outside of the years of UTC, the last stage
-/

namespace EquipmentMonitoring.Rfc3339

/-! ## The Grammar -/

/-- The fields spelled are those of a time of the calendar. -/
structure InCalendar (x : StampText) : Prop where
  year : 1 ≤ x.year.value ∧ x.year.value ≤ 9999
  month : 1 ≤ x.month.value ∧ x.month.value ≤ 12
  day : 1 ≤ x.day.value ∧ x.day.value ≤ monthDays x.year.value x.month.value
  hour : x.hour.value ≤ 23
  minute : x.minute.value ≤ 59
  second : x.second.value ≤ 59
  zone : ∀ z, x.zone = some z → z.hours.value ≤ 23 ∧ z.minutes.value ≤ 59

theorem valid_stamp_iff {x : StampText} : x.stamp.valid = true ↔ InCalendar x := by
  -- Four digits cannot exceed the last year.
  have hyear : x.year.value ≤ 9999 := by
    have h := digitsValue_lt x.year.digits
    rw [x.year.length_eq] at h
    exact Nat.le_of_lt_succ h
  have hzone : x.stamp.offset.all Offset.valid = true ↔
      ∀ z, x.zone = some z → z.hours.value ≤ 23 ∧ z.minutes.value ≤ 59 := by
    simp only [StampText.stamp]
    cases x.zone with
    | none => simp
    | some z => simp [ZoneText.offset, Offset.valid]
  constructor
  · intro h
    simp only [Stamp.valid, Bool.and_eq_true, decide_eq_true_eq] at h
    obtain ⟨⟨⟨hpos, hday⟩, ⟨hhour, hminute⟩, hsecond⟩, hoffset⟩ := h
    exact ⟨⟨hpos, hyear⟩, month_range hday, hday, hhour, hminute, hsecond, hzone.mp hoffset⟩
  · rintro ⟨⟨hpos, -⟩, -, hday, hhour, hminute, hsecond, hoffset⟩
    simp only [Stamp.valid, Bool.and_eq_true, decide_eq_true_eq]
    exact ⟨⟨⟨hpos, hday⟩, ⟨hhour, hminute⟩, hsecond⟩, hzone.mpr hoffset⟩

end EquipmentMonitoring.Rfc3339

namespace EquipmentMonitoring.Backend

open EquipmentMonitoring.Json EquipmentMonitoring.Rfc3339

/-! ## The Backend's Pattern -/

section Pattern

variable (unicodeDigit : Bytes → Bool)

/-- Drop a character that `\d` matches: an ASCII digit, or a longer one that counts as a digit. -/
def dropDigit : Bytes → Option Bytes
  | [] => none
  | b :: s =>
    let more := s.takeWhile fun c => decide (0x80 ≤ c ∧ c ≤ 0xBF)
    if isDigit b then some s
    else if 0x80 ≤ b ∧ unicodeDigit (b :: more) = true then some (s.drop more.length)
    else none

def dropDigits : Nat → Bytes → Option Bytes
  | 0, s => some s
  | n + 1, s => (dropDigit unicodeDigit s).bind (dropDigits n)

/-- `\d*`, in at most `fuel` characters. -/
def dropAllDigits : Nat → Bytes → Bytes
  | 0, s => s
  | fuel + 1, s =>
    match dropDigit unicodeDigit s with
    | some rest => dropAllDigits fuel rest
    | none => s

/-- Groups of digits, each of the given length and behind its separator. -/
def dropGroups : List (UInt8 × Nat) → Bytes → Option Bytes
  | [], s => some s
  | (separator, n) :: groups, s =>
    ((expectByte separator s).bind (dropDigits unicodeDigit n)).bind (dropGroups groups)

/-- `(?:Z|[+-]\d{2}:\d{2})` up to the end. -/
def matchesZone : Bytes → Bool
  | [0x5A] => true
  | b :: s => (b == 0x2B || b == 0x2D) &&
    decide ((dropDigits unicodeDigit 2 s).bind (dropGroups unicodeDigit [(0x3A, 2)]) = some [])
  | [] => false

/-- `re.fullmatch(TIMESTAMP_PATTERN, value)`. -/
def matchesTimestampPattern (text : Bytes) : Bool :=
  match (dropDigits unicodeDigit 4 text).bind
    (dropGroups unicodeDigit [(0x2D, 2), (0x2D, 2), (0x54, 2), (0x3A, 2), (0x3A, 2)]) with
  | none => false
  -- the fraction has one digit at least
  | some (0x2E :: s) =>
    match dropDigit unicodeDigit s with
    | none => false
    | some rest => matchesZone unicodeDigit (dropAllDigits unicodeDigit rest.length rest)
  | some s => matchesZone unicodeDigit s

/-! ## The Backend's Stages -/

/-- `require_timestamp`, for a decoded JSON value. -/
def requireTimestamp : Value → Except ErrorCode Bytes
  | .string text =>
    if matchesTimestampPattern unicodeDigit text then .ok text else .error .valueError
  | _ => .error .valueError

/-- pydantic, with what is documented of its parser of datetimes. -/
class Pydantic where
  parseDatetime : Bytes → Except ErrorCode Stamp
  /-- Of the texts that pass the pattern it parses those of RFC 3339, by the rules of the calendar. -/
  parses : ∀ digit text stamp, matchesTimestampPattern digit text = true →
    (parseDatetime text = .ok stamp ↔
      ∃ x : StampText, x.render = text ∧ x.stamp = stamp ∧ InCalendar x)

/-- `normalize_utc`. -/
def normalizeUtc (stamp : Stamp) : Except ErrorCode Time :=
  if representable stamp.instant then .ok stamp.instant else .error .valueError

/-- `Timestamp`, stage by stage. -/
def timestamp [Pydantic] (v : Value) : Except ErrorCode Time := do
  let text ← requireTimestamp unicodeDigit v
  let stamp ← Pydantic.parseDatetime text
  normalizeUtc stamp

/-! ## Texts with Fields Match -/

theorem dropDigits_run {n : Nat} (d : DigitRun n) (r : Bytes) :
    dropDigits unicodeDigit n (d.text ++ r) = some r := by
  obtain ⟨text, hlength, hdigits⟩ := d
  subst hlength
  induction text with
  | nil => rfl
  | cons b rest ih =>
    rw [List.all_cons, Bool.and_eq_true] at hdigits
    simp only [List.length_cons, List.cons_append, dropDigits, dropDigit, hdigits.1, if_true,
      Option.bind_some]
    exact ih hdigits.2

theorem dropGroups_cons {n : Nat} (separator : UInt8) (d : DigitRun n) (groups : List (UInt8 × Nat))
    (r : Bytes) :
    dropGroups unicodeDigit ((separator, n) :: groups) (separator :: (d.text ++ r)) =
      dropGroups unicodeDigit groups r := by
  simp [dropGroups, expectByte, dropDigits_run]

theorem matchesZone_render (z : Option ZoneText) :
    matchesZone unicodeDigit (renderZone z) = true := by
  cases z with
  | none => rfl
  | some z =>
    have htail : (dropDigits unicodeDigit 2 (z.hours.text ++ 0x3A :: z.minutes.text)).bind
        (dropGroups unicodeDigit [(0x3A, 2)]) = some [] := by
      have h := dropGroups_cons unicodeDigit 0x3A z.minutes [] []
      rw [List.append_nil] at h
      rw [dropDigits_run, Option.bind_some, h]
      rfl
    rw [renderZone, matchesZone.eq_2, htail]
    · rcases z.sign_valid with h | h <;> rw [h] <;> rfl
    · rintro h -
      rcases z.sign_valid with h' | h' <;> rw [h'] at h <;> exact absurd h (by decide)

/-- A zone begins with an ASCII character that is no digit. -/
theorem dropDigit_zone (z : Option ZoneText) : dropDigit unicodeDigit (renderZone z) = none := by
  cases z with
  | none => simp [renderZone, dropDigit, isDigit]
  | some z =>
    rcases z.sign_valid with h | h <;> simp [renderZone, dropDigit, h, isDigit]

theorem dropAllDigits_zone (z : Option ZoneText) (fuel : Nat) :
    dropAllDigits unicodeDigit fuel (renderZone z) = renderZone z := by
  cases fuel with
  | zero => rfl
  | succ fuel => rw [dropAllDigits, dropDigit_zone]

theorem dropAllDigits_run {text : Bytes} (hdigits : text.all isDigit = true) (z : Option ZoneText)
    {fuel : Nat} (hfuel : text.length ≤ fuel) :
    dropAllDigits unicodeDigit fuel (text ++ renderZone z) = renderZone z := by
  induction text generalizing fuel with
  | nil => exact dropAllDigits_zone unicodeDigit z fuel
  | cons b rest ih =>
    rw [List.all_cons, Bool.and_eq_true] at hdigits
    obtain ⟨fuel, rfl⟩ : ∃ k, fuel = k + 1 := ⟨fuel - 1, by simp at hfuel; omega⟩
    simp only [List.cons_append, dropAllDigits, dropDigit, hdigits.1, if_true]
    exact ih hdigits.2 (by simpa using hfuel)

theorem matchesTimestampPattern_render (x : StampText) :
    matchesTimestampPattern unicodeDigit x.render = true := by
  have hzone := notStarting_zone x.zone
  have hseconds (r : Bytes) : (dropDigits unicodeDigit 4 (x.renderSeconds ++ r)).bind
      (dropGroups unicodeDigit [(0x2D, 2), (0x2D, 2), (0x54, 2), (0x3A, 2), (0x3A, 2)]) =
        some r := by
    simp only [StampText.renderSeconds, List.append_assoc, List.cons_append, dropDigits_run,
      Option.bind_some, dropGroups_cons]
    rfl
  unfold matchesTimestampPattern
  rw [StampText.render, List.append_assoc, hseconds]
  cases hfraction : x.fraction with
  | nil =>
    rw [renderFraction, if_pos rfl, List.nil_append]
    split
    · next h => simp at h
    · next s h =>
      -- a zone does not begin with a point
      rw [Option.some.inj h] at hzone
      exact absurd (hzone 0x2E rfl) (by decide)
    · next s _ h => rw [← Option.some.inj h, matchesZone_render]
  | cons b rest =>
    have hdigits := x.fraction_digits
    rw [hfraction, List.all_cons, Bool.and_eq_true] at hdigits
    have hrun : dropAllDigits unicodeDigit (rest ++ renderZone x.zone).length
        (rest ++ renderZone x.zone) = renderZone x.zone :=
      dropAllDigits_run unicodeDigit hdigits.2 x.zone (by simp)
    simp only [renderFraction, List.cons_ne_nil, if_false, List.cons_append, dropDigit, hdigits.1,
      if_true, hrun, matchesZone_render]

/-! ## The Stages Together -/

theorem requireTimestamp_render (x : StampText) :
    requireTimestamp unicodeDigit (.string x.render) = .ok x.render := by
  rw [requireTimestamp, if_pos (matchesTimestampPattern_render unicodeDigit x)]

theorem requireTimestamp_eq_ok {v : Value} {text : Bytes} :
    requireTimestamp unicodeDigit v = .ok text ↔
      v = .string text ∧ matchesTimestampPattern unicodeDigit text = true := by
  cases v with
  | string s =>
    rw [requireTimestamp]
    constructor
    · intro h
      split at h
      · next hmatches =>
        obtain rfl := Except.ok.inj h
        exact ⟨rfl, hmatches⟩
      · simp at h
    · rintro ⟨hs, hmatches⟩
      obtain rfl := Value.string.inj hs
      rw [if_pos hmatches]
  | _ => simp [requireTimestamp]

theorem parseDatetime_render [Pydantic] {x : StampText} (h : InCalendar x) :
    Pydantic.parseDatetime x.render = .ok x.stamp :=
  -- the digits of the text are ASCII, whatever others the pattern knows
  (Pydantic.parses (fun _ => false) _ _ (matchesTimestampPattern_render _ x)).mpr ⟨x, rfl, rfl, h⟩

/-- The stages read what `readTimestamp` reads. -/
theorem timestamp_eq_ok [Pydantic] {v : Value} {t : Time} :
    timestamp unicodeDigit v = .ok t ↔ readTimestamp v = .ok t := by
  constructor
  · intro h
    simp only [timestamp, except_bind_eq_ok, requireTimestamp_eq_ok] at h
    obtain ⟨text, ⟨rfl, hmatches⟩, stamp, hstamp, hutc⟩ := h
    obtain ⟨x, rfl, rfl, hcalendar⟩ := (Pydantic.parses _ _ _ hmatches).mp hstamp
    have hvalid : x.stamp.valid = true := valid_stamp_iff.mpr hcalendar
    unfold normalizeUtc at hutc
    split at hutc
    · next hrange =>
      simp only [readTimestamp,
        instantOf_eq_some.mpr ⟨x, rfl, hvalid, hrange, Except.ok.inj hutc⟩]
    · simp at hutc
  · intro h
    cases v with
    | string text =>
      simp only [readTimestamp] at h
      split at h
      · next instant hinstant =>
        obtain ⟨x, rfl, hvalid, hrange, rfl⟩ := instantOf_eq_some.mp hinstant
        obtain rfl := Except.ok.inj h
        simp only [timestamp, except_bind_eq_ok]
        exact ⟨_, requireTimestamp_render unicodeDigit x, _,
          parseDatetime_render (valid_stamp_iff.mp hvalid),
          by rw [normalizeUtc, if_pos hrange]⟩
      · simp at h
    | _ => simp [readTimestamp] at h

end Pattern

end EquipmentMonitoring.Backend

namespace EquipmentMonitoring.Exchange

open EquipmentMonitoring.Json EquipmentMonitoring.Rfc3339 EquipmentMonitoring.Telemetry

/-! ## Agreement -/

theorem validMeasuredAt_iff {s : Bytes} :
    validMeasuredAt (.string s) = .ok true ↔ ∃ x : StampText, x.render = s ∧ InCalendar x := by
  obtain ⟨valid, heq, hvalid⟩ := validMeasuredAt_text s
  simp only [heq, Except.ok.injEq, hvalid, valid_stamp_iff]

/-- The gateway's check is the grammar; what passes it fails in the backend only for lying outside
of the years 1 to 9999 of UTC, whatever other digits the backend's pattern knows. -/
theorem timestamps_agree [Backend.Pydantic] :
    (∀ s, validMeasuredAt (.string s) = .ok true ↔
      ∃ x : StampText, x.render = s ∧ InCalendar x) ∧
    ∀ s, validMeasuredAt (.string s) = .ok true → ∀ unicodeDigit, ∃ stamp,
      Backend.requireTimestamp unicodeDigit (.string s) = .ok s ∧
      Backend.Pydantic.parseDatetime s = .ok stamp ∧
      ∀ code, Backend.normalizeUtc stamp = .error code ↔
        code = .valueError ∧ ¬ (0 ≤ stamp.instant ∧ stamp.instant < endOfTime) := by
  refine ⟨fun s => validMeasuredAt_iff, fun s hs unicodeDigit => ?_⟩
  obtain ⟨x, rfl, hcalendar⟩ := validMeasuredAt_iff.mp hs
  refine ⟨x.stamp, Backend.requireTimestamp_render unicodeDigit x,
    Backend.parseDatetime_render hcalendar, fun code => ?_⟩
  -- only the instant can still be refused: an offset may carry it out of the calendar
  by_cases hrange : representable x.stamp.instant = true
  · rw [Backend.normalizeUtc, if_pos hrange]
    simp only [representable, Bool.and_eq_true, decide_eq_true_eq] at hrange
    simp [hrange]
  · rw [Backend.normalizeUtc, if_neg hrange]
    simp only [representable, Bool.and_eq_true, decide_eq_true_eq] at hrange
    simp [hrange, eq_comm]

/-! ## A Timestamp -/

/-- A parser that reads RFC 3339 and nothing else. -/
def readDatetime (text : Bytes) : Except Backend.ErrorCode Stamp :=
  match readStamp text with
  | some stamp => if stamp.valid then .ok stamp else .error .datetimeParsing
  | none => .error .datetimeParsing

theorem readDatetime_eq_ok {text : Bytes} {stamp : Stamp} :
    readDatetime text = .ok stamp ↔
      ∃ x : StampText, x.render = text ∧ x.stamp = stamp ∧ InCalendar x := by
  unfold readDatetime
  cases hread : readStamp text with
  | none =>
    simp only [reduceCtorEq, false_iff]
    rintro ⟨x, hx, -⟩
    have hsome := readStamp_eq_some.mpr ⟨x, hx, rfl⟩
    rw [hread] at hsome
    simp at hsome
  | some t =>
    obtain ⟨x, hx, rfl⟩ := readStamp_eq_some.mp hread
    constructor
    · intro h
      simp only at h
      split at h
      · next hvalid =>
        obtain rfl := Except.ok.inj h
        exact ⟨x, hx, rfl, valid_stamp_iff.mp hvalid⟩
      · simp at h
    · rintro ⟨y, hy, rfl, hcalendar⟩
      -- a text is rendered from one stamp only
      have hsame := readStamp_eq_some.mpr ⟨y, hy, rfl⟩
      rw [hread] at hsame
      simp only [Option.some.inj hsame, valid_stamp_iff.mpr hcalendar, if_true]

instance documentedPydantic : Backend.Pydantic where
  parseDatetime := readDatetime
  parses _ _ _ _ := readDatetime_eq_ok

/-- On the last day of February in a leap year, with a fraction and an offset. -/
def sampleTimestamp : Bytes := ascii "2024-02-29T23:30:00.5-01:00"

theorem timestamps_agree_sample :
    ∃ stamp, Backend.requireTimestamp (fun _ => false) (.string sampleTimestamp) =
        .ok sampleTimestamp ∧
      Backend.Pydantic.parseDatetime sampleTimestamp = .ok stamp := by
  have haccepted : validMeasuredAt (.string sampleTimestamp) = .ok true := by decide +kernel
  obtain ⟨stamp, hrequired, hparsed, -⟩ :=
    timestamps_agree.2 sampleTimestamp haccepted fun _ => false
  exact ⟨stamp, hrequired, hparsed⟩

end EquipmentMonitoring.Exchange
