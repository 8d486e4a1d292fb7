import EquipmentMonitoring.Foundations.Json.RoundTrip
import EquipmentMonitoring.Foundations.Rfc3339

/-!
# Timestamp Texts

The texts `readStamp` takes, as a structure: each field a run of digits of its own length. A text
can be taken apart without positions, and a printed one is read back field by field.

## Key Results

- `readStamp_eq_some`: the texts with fields are the renderings, and the fields their digits
-/

namespace EquipmentMonitoring.Rfc3339

open EquipmentMonitoring.Json

/-- A run of exactly `n` digits. -/
structure DigitRun (n : Nat) where
  text : Bytes
  length_eq : text.length = n
  digits : text.all isDigit = true

def DigitRun.value {n : Nat} (d : DigitRun n) : Nat := digitsValue d.text

/-- An offset as spelled. -/
structure ZoneText where
  sign : UInt8
  sign_valid : sign = 0x2B ∨ sign = 0x2D
  hours : DigitRun 2
  minutes : DigitRun 2

/-- A timestamp as spelled; the fraction is empty when there is none, and no zone stands for `Z`. -/
structure StampText where
  year : DigitRun 4
  month : DigitRun 2
  day : DigitRun 2
  hour : DigitRun 2
  minute : DigitRun 2
  second : DigitRun 2
  fraction : Bytes
  fraction_digits : fraction.all isDigit = true
  zone : Option ZoneText

def renderFraction (fraction : Bytes) : Bytes := if fraction = [] then [] else 0x2E :: fraction

def renderZone : Option ZoneText → Bytes
  | none => [0x5A]
  | some z => z.sign :: (z.hours.text ++ 0x3A :: z.minutes.text)

def ZoneText.offset (z : ZoneText) : Offset := ⟨z.sign == 0x2D, z.hours.value, z.minutes.value⟩

/-- Date and time up to the seconds: nineteen octets. -/
def StampText.renderSeconds (x : StampText) : Bytes :=
  x.year.text ++ 0x2D :: x.month.text ++ 0x2D :: x.day.text ++ 0x54 :: x.hour.text ++
    0x3A :: x.minute.text ++ 0x3A :: x.second.text

def StampText.render (x : StampText) : Bytes :=
  x.renderSeconds ++ renderFraction x.fraction ++ renderZone x.zone

/-- The fields the text spells. -/
def StampText.stamp (x : StampText) : Stamp :=
  ⟨x.year.value, x.month.value, x.day.value, x.hour.value, x.minute.value, x.second.value,
    x.fraction, x.zone.map ZoneText.offset⟩

/-! ## Fields -/

theorem takeNumber_eq_some {n v : Nat} {s r : Bytes} :
    takeNumber n s = some (v, r) ↔ ∃ d : DigitRun n, s = d.text ++ r ∧ d.value = v := by
  unfold takeNumber
  constructor
  · intro h
    split at h
    · next hrun =>
      obtain ⟨rfl, rfl⟩ := Prod.mk.inj (Option.some.inj h)
      exact ⟨⟨s.take n, hrun.1, hrun.2⟩, (List.take_append_drop n s).symm, rfl⟩
    · simp at h
  · rintro ⟨d, rfl, rfl⟩
    have htake : (d.text ++ r).take n = d.text := by simp [← d.length_eq]
    have hdrop : (d.text ++ r).drop n = r := by simp [← d.length_eq]
    rw [htake, hdrop, if_pos ⟨d.length_eq, d.digits⟩]
    rfl

theorem takePair_eq_some {separator : UInt8} {v : Nat} {s r : Bytes} :
    takePair separator s = some (v, r) ↔
      ∃ d : DigitRun 2, s = separator :: (d.text ++ r) ∧ d.value = v := by
  simp only [takePair, Option.bind_eq_some_iff, expectByte_eq_some, takeNumber_eq_some]
  constructor
  · rintro ⟨_, rfl, d, rfl, hv⟩
    exact ⟨d, rfl, hv⟩
  · rintro ⟨d, rfl, hv⟩
    exact ⟨_, rfl, d, rfl, hv⟩

/-- A fraction ends where the digits end. -/
theorem takeFraction_eq_some {f s r : Bytes} (h : takeFraction s = some (f, r)) :
    f.all isDigit = true ∧ s = renderFraction f ++ r := by
  unfold takeFraction at h
  split at h
  · next s =>
    split at h
    · simp at h
    · next hne =>
      obtain ⟨rfl, rfl⟩ := Prod.mk.inj (Option.some.inj h)
      refine ⟨List.all_takeWhile, ?_⟩
      rw [renderFraction, if_neg hne, List.cons_append, List.takeWhile_append_dropWhile]
  · obtain ⟨rfl, rfl⟩ := Prod.mk.inj (Option.some.inj h)
    exact ⟨rfl, rfl⟩

theorem takeFraction_render {f r : Bytes} (hf : f.all isDigit = true)
    (hr : NotStarting (fun b => isDigit b || b == 0x2E) r) :
    takeFraction (renderFraction f ++ r) = some (f, r) := by
  have hdigit : NotStarting isDigit r := hr.mono fun b hb => by simp [hb]
  unfold renderFraction
  split
  · next hnil =>
    subst hnil
    cases r with
    | nil => rfl
    | cons b r =>
      have hb := hr b rfl
      simp only [Bool.or_eq_false_iff, beq_eq_false_iff_ne] at hb
      unfold takeFraction
      split
      · next heq => exact absurd (List.cons.inj heq).1 hb.2
      · rfl
  · next hne =>
    obtain ⟨htake, hdrop⟩ := takeWhile_append_of_all hf hdigit
    simp [takeFraction, htake, hdrop, hne]

theorem readZone_eq_some {s : Bytes} {o : Option Offset} :
    readZone s = some o ↔ ∃ z, renderZone z = s ∧ z.map ZoneText.offset = o := by
  unfold readZone
  constructor
  · intro h
    split at h
    · simp at h
    · next b s =>
      split at h
      · next hz =>
        obtain ⟨rfl, rfl⟩ := hz
        exact ⟨none, rfl, Option.some.inj h⟩
      · split at h
        · next hsign =>
          simp only [Option.bind_eq_bind, Option.bind_eq_some_iff, Prod.exists,
            takeNumber_eq_some, takePair_eq_some] at h
          obtain ⟨_, _, ⟨hours, rfl, rfl⟩, _, rest, ⟨minutes, rfl, rfl⟩, h⟩ := h
          split at h
          · next hnil =>
            subst hnil
            refine ⟨some ⟨b, hsign, hours, minutes⟩, ?_, Option.some.inj h⟩
            simp [renderZone]
          · simp at h
        · simp at h
  · rintro ⟨z, rfl, rfl⟩
    cases z with
    | none => rfl
    | some z =>
      -- a written offset starts with its sign, which is not the letter for UTC
      have hne : z.sign ≠ 0x5A := by rcases z.sign_valid with h | h <;> rw [h] <;> decide
      simp only [renderZone, hne, false_and, if_false, if_pos z.sign_valid, Option.bind_eq_bind,
        Option.bind_eq_some_iff, Prod.exists, takeNumber_eq_some, takePair_eq_some]
      exact ⟨_, _, ⟨z.hours, rfl, rfl⟩, _, [], ⟨z.minutes, by simp, rfl⟩, rfl⟩

theorem notStarting_zone (z : Option ZoneText) :
    NotStarting (fun b => isDigit b || b == 0x2E) (renderZone z) := by
  intro b hb
  cases z with
  | none =>
    obtain rfl : 0x5A = b := Option.some.inj hb
    decide
  | some z =>
    obtain rfl : z.sign = b := Option.some.inj hb
    rcases z.sign_valid with h | h <;> rw [h] <;> decide

/-! ## Texts -/

/-- The texts with fields are the renderings. -/
theorem readStamp_eq_some {s : Bytes} {t : Stamp} :
    readStamp s = some t ↔ ∃ x : StampText, x.render = s ∧ x.stamp = t := by
  simp only [readStamp, Option.bind_eq_bind, Option.bind_eq_some_iff, Prod.exists,
    takeNumber_eq_some, takePair_eq_some, readZone_eq_some, Option.pure_def, Option.some.injEq]
  constructor
  · rintro ⟨_, _, ⟨year, rfl, rfl⟩, _, _, ⟨month, rfl, rfl⟩, _, _, ⟨day, rfl, rfl⟩, _, _,
      ⟨hour, rfl, rfl⟩, _, _, ⟨minute, rfl, rfl⟩, _, _, ⟨second, rfl, rfl⟩, f, _, hfraction, _,
      ⟨zone, rfl, rfl⟩, rfl⟩
    obtain ⟨hdigits, rfl⟩ := takeFraction_eq_some hfraction
    exact ⟨⟨year, month, day, hour, minute, second, f, hdigits, zone⟩,
      by simp [StampText.render, StampText.renderSeconds], rfl⟩
  · rintro ⟨x, rfl, rfl⟩
    refine ⟨_, _, ⟨x.year, ?_, rfl⟩, _, _, ⟨x.month, rfl, rfl⟩, _, _, ⟨x.day, rfl, rfl⟩, _, _,
      ⟨x.hour, rfl, rfl⟩, _, _, ⟨x.minute, rfl, rfl⟩, _, _, ⟨x.second, rfl, rfl⟩, x.fraction, _,
      takeFraction_render x.fraction_digits (notStarting_zone x.zone), _, ⟨x.zone, rfl, rfl⟩, rfl⟩
    simp [StampText.render, StampText.renderSeconds]

theorem instantOf_eq_some {s : Bytes} {i : Int} :
    instantOf s = some i ↔ ∃ x : StampText, x.render = s ∧ x.stamp.valid = true ∧
      representable x.stamp.instant = true ∧ x.stamp.instant = i := by
  simp only [instantOf, Option.bind_eq_bind, Option.bind_eq_some_iff, readStamp_eq_some,
    Option.ite_none_right_eq_some, Option.some.injEq, Bool.and_eq_true]
  constructor
  · rintro ⟨_, ⟨x, rfl, rfl⟩, ⟨hvalid, hrange⟩, rfl⟩
    exact ⟨x, rfl, hvalid, hrange, rfl⟩
  · rintro ⟨x, rfl, hvalid, hrange, rfl⟩
    exact ⟨_, ⟨x, rfl, rfl⟩, ⟨hvalid, hrange⟩, rfl⟩

/-- A timestamp is spelled in ASCII. -/
theorem StampText.valid_render (x : StampText) : Utf8.valid x.render = true := by
  refine Utf8.valid_of_ascii fun b hb => ?_
  have hdigit {text : Bytes} (h : text.all isDigit = true) (hb : b ∈ text) : b ≤ 0x7F :=
    ascii_of_numberByte (by simp [isNumberByte, List.all_eq_true.mp h b hb])
  have hzone (hb : b ∈ renderZone x.zone) : b ≤ 0x7F := by
    cases hz : x.zone with
    | none =>
      rw [hz] at hb
      obtain rfl : b = 0x5A := List.mem_singleton.mp hb
      decide
    | some z =>
      simp only [hz, renderZone, List.mem_cons, List.mem_append] at hb
      rcases hb with rfl | hb | rfl | hb
      · rcases z.sign_valid with h | h <;> rw [h] <;> decide
      · exact hdigit z.hours.digits hb
      · decide
      · exact hdigit z.minutes.digits hb
  -- Every part of the text is digits or punctuation.
  have hfraction (hb : b ∈ renderFraction x.fraction) : b ≤ 0x7F := by
    unfold renderFraction at hb
    split at hb
    · simp at hb
    · rcases List.mem_cons.mp hb with rfl | hb
      · decide
      · exact hdigit x.fraction_digits hb
  simp only [StampText.render, StampText.renderSeconds, List.mem_append, List.mem_cons] at hb
  rcases hb with (((((((h | rfl | h) | rfl | h) | rfl | h) | rfl | h) | rfl | h)) | h) | h
  · exact hdigit x.year.digits h
  · decide
  · exact hdigit x.month.digits h
  · decide
  · exact hdigit x.day.digits h
  · decide
  · exact hdigit x.hour.digits h
  · decide
  · exact hdigit x.minute.digits h
  · decide
  · exact hdigit x.second.digits h
  · exact hfraction h
  · exact hzone h

end EquipmentMonitoring.Rfc3339
