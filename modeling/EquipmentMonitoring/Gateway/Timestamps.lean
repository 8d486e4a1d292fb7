import EquipmentMonitoring.Foundations.Numerals
import EquipmentMonitoring.Foundations.StampText
import EquipmentMonitoring.Gateway.Accepted
import Mathlib.Tactic.IntervalCases

/-!
# The Timestamps the Gateway Accepts

`valid_measured_at` checks a regular expression and then converts substrings at fixed positions.
Whatever the fraction and the offset, every substring is there and converts, and what is accepted
are the texts that spell a time of the calendar.

## Key Results

- `matchesPattern_iff`: the regular expression
- `findLastSign_append`: the last sign is the offset's, or one of the date
- `validMeasuredAt_render`: the whole check on a text of the pattern
- `validMeasuredAt_text`: the check on any text
-/

namespace EquipmentMonitoring.Telemetry

open EquipmentMonitoring.Json EquipmentMonitoring.Rfc3339

/-! ## The Pattern -/

theorem dropDigits_run {n : Nat} (d : DigitRun n) (r : Bytes) :
    dropDigits n (d.text ++ r) = some r := by
  obtain ⟨text, hlength, hdigits⟩ := d
  subst hlength
  induction text with
  | nil => rfl
  | cons b rest ih =>
    rw [List.all_cons, Bool.and_eq_true] at hdigits
    simp only [List.length_cons, List.cons_append, dropDigits, hdigits.1, if_true]
    exact ih hdigits.2

theorem dropGroups_cons {n : Nat} (separator : UInt8) (d : DigitRun n) (groups : List (UInt8 × Nat))
    (r : Bytes) :
    dropGroups ((separator, n) :: groups) (separator :: (d.text ++ r)) = dropGroups groups r := by
  simp [dropGroups, expectByte, dropDigits_run]

theorem dropGroups_render (x : StampText) (r : Bytes) :
    (dropDigits 4 (x.renderSeconds ++ r)).bind (dropGroups dateTimeGroups) = some r := by
  simp only [StampText.renderSeconds, List.append_assoc, List.cons_append, dropDigits_run,
    Option.bind_some, dateTimeGroups, dropGroups_cons]
  rfl

theorem matchesZone_render (z : Option ZoneText) : matchesZone (renderZone z) = true := by
  cases z with
  | none => rfl
  | some z =>
    have htail : (dropDigits 2 (z.hours.text ++ 0x3A :: z.minutes.text)).bind
        (dropGroups [(0x3A, 2)]) = some [] := by
      have h := dropGroups_cons 0x3A z.minutes [] []
      rw [List.append_nil] at h
      rw [dropDigits_run, Option.bind_some, h]
      rfl
    rw [renderZone, matchesZone.eq_2, htail]
    · rcases z.sign_valid with h | h <;> rw [h] <;> rfl
    · rintro h -
      rcases z.sign_valid with h' | h' <;> rw [h'] at h <;> exact absurd h (by decide)

theorem matchesPattern_render (x : StampText) : matchesPattern x.render = true := by
  have hzone := notStarting_zone x.zone
  have hdigit : NotStarting isDigit (renderZone x.zone) := hzone.mono fun b hb => by simp [hb]
  unfold matchesPattern
  rw [StampText.render, List.append_assoc, dropGroups_render]
  by_cases hfraction : x.fraction = []
  · rw [renderFraction, if_pos hfraction, List.nil_append]
    split
    · next h => simp at h
    · next s h =>
      -- a zone does not begin with a point
      rw [Option.some.inj h] at hzone
      exact absurd (hzone 0x2E rfl) (by decide)
    · next s _ h => rw [← Option.some.inj h, matchesZone_render]
  · obtain ⟨htake, hdrop⟩ := takeWhile_append_of_all x.fraction_digits hdigit
    simp [renderFraction, htake, hdrop, hfraction, matchesZone_render]

theorem dropDigits_eq_some {n : Nat} {s r : Bytes} :
    dropDigits n s = some r ↔ ∃ d : DigitRun n, s = d.text ++ r := by
  constructor
  · intro h
    induction n generalizing s with
    | zero => exact ⟨⟨[], rfl, rfl⟩, Option.some.inj h⟩
    | succ n ih =>
      cases s with
      | nil => simp [dropDigits] at h
      | cons b s =>
        simp only [dropDigits] at h
        split at h
        · next hb =>
          obtain ⟨d, rfl⟩ := ih h
          refine ⟨⟨b :: d.text, by simp [d.length_eq], ?_⟩, rfl⟩
          rw [List.all_cons, hb, d.digits]
          rfl
        · simp at h
  · rintro ⟨d, rfl⟩
    exact dropDigits_run d r

theorem dropGroups_eq_some {separator : UInt8} {n : Nat} {groups : List (UInt8 × Nat)} {s r : Bytes} :
    dropGroups ((separator, n) :: groups) s = some r ↔
      ∃ (d : DigitRun n) (rest : Bytes), s = separator :: (d.text ++ rest) ∧
        dropGroups groups rest = some r := by
  simp only [dropGroups, Option.bind_eq_some_iff, expectByte_eq_some, dropDigits_eq_some]
  constructor
  · rintro ⟨rest, ⟨_, rfl, d, rfl⟩, h⟩
    exact ⟨d, rest, rfl, h⟩
  · rintro ⟨d, rest, rfl, h⟩
    exact ⟨rest, ⟨_, rfl, d, rfl⟩, h⟩

theorem matchesZone_iff {s : Bytes} : matchesZone s = true ↔ ∃ z, renderZone z = s := by
  constructor
  · intro h
    unfold matchesZone at h
    split at h
    · exact ⟨none, rfl⟩
    · next b s _ =>
      rw [Bool.and_eq_true, Bool.or_eq_true, beq_iff_eq, beq_iff_eq, decide_eq_true_eq,
        Option.bind_eq_some_iff] at h
      obtain ⟨hsign, _, hhours, hminutes⟩ := h
      obtain ⟨hours, rfl⟩ := dropDigits_eq_some.mp hhours
      obtain ⟨minutes, rest, rfl, hrest⟩ := dropGroups_eq_some.mp hminutes
      obtain rfl : rest = [] := Option.some.inj hrest
      exact ⟨some ⟨b, hsign, hours, minutes⟩, by simp [renderZone]⟩
    · simp at h
  · rintro ⟨z, rfl⟩
    exact matchesZone_render z

/-- What was dropped are the fields up to the seconds. -/
theorem dateTime_eq_some {s r : Bytes}
    (h : (dropDigits 4 s).bind (dropGroups dateTimeGroups) = some r) :
    ∃ x : StampText, s = x.renderSeconds ++ r := by
  obtain ⟨s₁, hyear, hgroups⟩ := Option.bind_eq_some_iff.mp h
  obtain ⟨year, rfl⟩ := dropDigits_eq_some.mp hyear
  simp only [dateTimeGroups, dropGroups_eq_some] at hgroups
  obtain ⟨month, s₂, rfl, day, s₃, rfl, hour, s₄, rfl, minute, s₅, rfl, second, s₆, rfl, hend⟩ :=
    hgroups
  obtain rfl : s₆ = r := Option.some.inj hend
  exact ⟨⟨year, month, day, hour, minute, second, [], rfl, none⟩, by
    simp [StampText.renderSeconds]⟩

/-- The regular expression matches the renderings. -/
theorem matchesPattern_iff {s : Bytes} : matchesPattern s = true ↔ ∃ x : StampText, x.render = s := by
  constructor
  · intro h
    unfold matchesPattern at h
    split at h
    · simp at h
    · next s hgroups =>
      obtain ⟨x, rfl⟩ := dateTime_eq_some hgroups
      rw [Bool.and_eq_true, bne_iff_ne, matchesZone_iff] at h
      obtain ⟨hfraction, z, hz⟩ := h
      refine ⟨{ x with
        fraction := s.takeWhile isDigit, fraction_digits := List.all_takeWhile, zone := z }, ?_⟩
      have hsplit := List.takeWhile_append_dropWhile (p := isDigit) (l := s)
      simp [StampText.render, StampText.renderSeconds, renderFraction, hfraction, hz, hsplit]
    · next s _ hgroups =>
      obtain ⟨x, rfl⟩ := dateTime_eq_some hgroups
      obtain ⟨z, hz⟩ := matchesZone_iff.mp h
      refine ⟨{ x with fraction := [], fraction_digits := rfl, zone := z }, ?_⟩
      simp [StampText.render, StampText.renderSeconds, renderFraction, hz]
  · rintro ⟨x, rfl⟩
    exact matchesPattern_render x

/-! ## Substrings -/

theorem substr_middle {p d r : Bytes} {i n : Nat} (hp : p.length = i) (hd : d.length = n) :
    substr (p ++ (d ++ r)) i n = .ok d := by
  subst hp hd
  simp [substr]

theorem stoi_run {n : Nat} (d : DigitRun n) (hn : 0 < n ∧ n ≤ 9) : stoi d.text = .ok d.value := by
  obtain ⟨htake, -⟩ := takeWhile_append_of_all (r := []) d.digits (by simp)
  rw [List.append_nil] at htake
  have hne : d.text ≠ [] := by
    intro h
    have := d.length_eq
    simp [h] at this
    omega
  have hlt : digitsValue d.text < 10 ^ n := by
    have h := digitsValue_lt d.digits
    rwa [d.length_eq] at h
  have hpow : 10 ^ n ≤ 10 ^ 9 := Nat.pow_le_pow_right (by decide) hn.2
  have hmax : digitsValue d.text < 2 ^ 31 := by omega
  simp only [stoi, htake]
  rw [if_neg (by simpa using hne), if_pos hmax]
  rfl

/-! ## The Last Sign -/

/-- The last sign is found by its position. -/
theorem findLastSign_append {u v : Bytes} {b : UInt8} (hb : (b == 0x2B || b == 0x2D) = true)
    (hv : ∀ c ∈ v, (c == 0x2B || c == 0x2D) = false) :
    findLastSign (u ++ b :: v) = some u.length := by
  have hnone : v.reverse.findIdx? (fun b => b == 0x2B || b == 0x2D) = none := by
    rw [List.findIdx?_eq_none_iff]
    exact fun c hc => hv c (List.mem_reverse.mp hc)
  have hindex : (u ++ b :: v).reverse.findIdx? (fun b => b == 0x2B || b == 0x2D) =
      some v.length := by
    rw [List.reverse_append, List.reverse_cons, List.append_assoc, List.findIdx?_append, hnone]
    simp [List.findIdx?_cons, hb]
  rw [findLastSign, hindex]
  simp only [Option.map_some, List.length_append, List.length_cons]
  congr 1
  omega

theorem isDigit_not_sign {b : UInt8} (h : isDigit b = true) : (b == 0x2B || b == 0x2D) = false := by
  simp only [isDigit, Bool.and_eq_true, decide_eq_true_eq] at h
  rw [Bool.or_eq_false_iff, beq_eq_false_iff_ne, beq_eq_false_iff_ne]
  constructor <;> rintro rfl <;> exact absurd h.1 (by decide)

theorem run_not_sign {n : Nat} (d : DigitRun n) :
    ∀ c ∈ d.text, (c == 0x2B || c == 0x2D) = false :=
  fun c hc => isDigit_not_sign (List.all_eq_true.mp d.digits c hc)

theorem fraction_not_sign (x : StampText) :
    ∀ c ∈ renderFraction x.fraction, (c == 0x2B || c == 0x2D) = false := by
  unfold renderFraction
  split
  · simp
  · rw [List.forall_mem_cons]
    exact ⟨rfl, fun c hc => isDigit_not_sign (List.all_eq_true.mp x.fraction_digits c hc)⟩

/-- Without an offset the last sign stands before the day. -/
theorem findLastSign_utc (x : StampText) (h : x.zone = none) : findLastSign x.render = some 7 := by
  have htext : x.render = (x.year.text ++ 0x2D :: x.month.text) ++ 0x2D :: (x.day.text ++
      0x54 :: (x.hour.text ++ 0x3A :: (x.minute.text ++ 0x3A :: (x.second.text ++
        (renderFraction x.fraction ++ [0x5A]))))) := by
    simp [StampText.render, StampText.renderSeconds, h, renderZone]
  rw [htext, findLastSign_append (by decide)]
  · simp [x.year.length_eq, x.month.length_eq]
  · simp only [List.forall_mem_append, List.forall_mem_cons]
    exact ⟨run_not_sign x.day, rfl, run_not_sign x.hour, rfl, run_not_sign x.minute, rfl,
      run_not_sign x.second, fraction_not_sign x, by decide, by simp⟩

theorem render_offset {x : StampText} {z : ZoneText} (h : x.zone = some z) :
    x.render = (x.renderSeconds ++ renderFraction x.fraction) ++ z.sign ::
      (z.hours.text ++ 0x3A :: z.minutes.text) := by
  simp [StampText.render, h, renderZone]

theorem findLastSign_offset {x : StampText} {z : ZoneText} (h : x.zone = some z) :
    findLastSign x.render = some (x.renderSeconds ++ renderFraction x.fraction).length := by
  rw [render_offset h, findLastSign_append]
  · rcases z.sign_valid with hs | hs <;> rw [hs] <;> rfl
  · simp only [List.forall_mem_append, List.forall_mem_cons]
    exact ⟨run_not_sign z.hours, rfl, run_not_sign z.minutes⟩

theorem length_renderSeconds (x : StampText) : x.renderSeconds.length = 19 := by
  simp [StampText.renderSeconds, x.year.length_eq, x.month.length_eq, x.day.length_eq,
    x.hour.length_eq, x.minute.length_eq, x.second.length_eq]

/-! ## The Check -/

theorem daysInMonth_eq {year month : Nat} (h : 1 ≤ month ∧ month ≤ 12) :
    ∃ days, daysInMonth[month - 1]? = some days ∧
      days + (if (month == 2 && isLeap year) = true then 1 else 0) = monthDays year month := by
  have hleap : Rfc3339.isLeap year = isLeap year := rfl
  obtain ⟨hlow, hhigh⟩ := h
  unfold monthDays
  rw [hleap]
  -- twelve months, February with a leap day
  interval_cases month <;> refine ⟨_, rfl, ?_⟩ <;> cases isLeap year <;> rfl

/-- The fields stand where the substrings are taken. -/
theorem substr_fields (x : StampText) :
    substr x.render 0 4 = .ok x.year.text ∧ substr x.render 5 2 = .ok x.month.text ∧
      substr x.render 8 2 = .ok x.day.text ∧ substr x.render 11 2 = .ok x.hour.text ∧
      substr x.render 14 2 = .ok x.minute.text ∧ substr x.render 17 2 = .ok x.second.text := by
  have hat (p r : Bytes) {i n : Nat} (d : DigitRun n) (htext : x.render = p ++ (d.text ++ r))
      (hp : p.length = i) : substr x.render i n = .ok d.text := by
    rw [htext, substr_middle hp d.length_eq]
  -- what follows each field
  let afterSecond := renderFraction x.fraction ++ renderZone x.zone
  let afterMinute := 0x3A :: (x.second.text ++ afterSecond)
  let afterHour := 0x3A :: (x.minute.text ++ afterMinute)
  let afterDay := 0x54 :: (x.hour.text ++ afterHour)
  let afterMonth := 0x2D :: (x.day.text ++ afterDay)
  have hyear := x.year.length_eq
  have hmonth := x.month.length_eq
  have hday := x.day.length_eq
  have hhour := x.hour.length_eq
  have hminute := x.minute.length_eq
  refine ⟨hat [] (0x2D :: (x.month.text ++ afterMonth)) x.year ?_ rfl,
    hat (x.year.text ++ [0x2D]) afterMonth x.month ?_ ?_,
    hat (x.year.text ++ 0x2D :: x.month.text ++ [0x2D]) afterDay x.day ?_ ?_,
    hat (x.year.text ++ 0x2D :: x.month.text ++ 0x2D :: x.day.text ++ [0x54]) afterHour
      x.hour ?_ ?_,
    hat (x.year.text ++ 0x2D :: x.month.text ++ 0x2D :: x.day.text ++ 0x54 :: x.hour.text ++
      [0x3A]) afterMinute x.minute ?_ ?_,
    hat (x.year.text ++ 0x2D :: x.month.text ++ 0x2D :: x.day.text ++ 0x54 :: x.hour.text ++
      0x3A :: x.minute.text ++ [0x3A]) afterSecond x.second ?_ ?_⟩
  all_goals simp [StampText.render, StampText.renderSeconds, afterSecond, afterMinute, afterHour,
    afterDay, afterMonth, hyear, hmonth, hday, hhour, hminute]

theorem substr_offset {x : StampText} {z : ZoneText} (h : x.zone = some z) {offset : Nat}
    (hoffset : offset = (x.renderSeconds ++ renderFraction x.fraction).length) :
    substr x.render (offset + 1) 2 = .ok z.hours.text ∧
      substr x.render (offset + 4) 2 = .ok z.minutes.text := by
  have hhours := z.hours.length_eq
  constructor
  · have htext : x.render = (x.renderSeconds ++ renderFraction x.fraction ++ [z.sign]) ++
        (z.hours.text ++ 0x3A :: z.minutes.text) := by simp [render_offset h]
    rw [htext]
    exact substr_middle (by simp [hoffset, Nat.add_assoc]) z.hours.length_eq
  · have htext : x.render = (x.renderSeconds ++ renderFraction x.fraction ++ z.sign ::
        (z.hours.text ++ [0x3A])) ++ (z.minutes.text ++ []) := by simp [render_offset h]
    rw [htext]
    exact substr_middle (by simp [hoffset, hhours, Nat.add_assoc]) z.minutes.length_eq

/-- The offset at the end of the text, when there is one, is checked by itself. -/
theorem offset_render (x : StampText) :
    (match findLastSign x.render with
      | some offset =>
        if 19 ≤ offset then do
          let hours ← stoi (← substr x.render (offset + 1) 2)
          if hours ≤ 23 then do
            let minutes ← stoi (← substr x.render (offset + 4) 2)
            return decide (minutes ≤ 59)
          else return false
        else return true
      | none => return true : Except Thrown Bool) = .ok (x.stamp.offset.all Offset.valid) := by
  -- Both fields have two digits, which the parser of integers reads whole.
  have hpair : 0 < 2 ∧ 2 ≤ 9 := by decide
  cases hz : x.zone with
  | none =>
    rw [findLastSign_utc x hz]
    simp [StampText.stamp, hz, pure, Except.pure]
  | some z =>
    obtain ⟨hhours, hminutes⟩ := substr_offset hz rfl
    have hlength : 19 ≤ (x.renderSeconds ++ renderFraction x.fraction).length := by
      rw [List.length_append, length_renderSeconds]
      omega
    have hoffset : x.stamp.offset.all Offset.valid =
        (decide (z.hours.value ≤ 23) && decide (z.minutes.value ≤ 59)) := by
      simp [StampText.stamp, hz, ZoneText.offset, Offset.valid]
    simp only [findLastSign_offset hz, if_pos hlength, hhours, hminutes, stoi_run z.hours hpair,
      stoi_run z.minutes hpair, hoffset, bind, Except.bind, pure, Except.pure]
    by_cases h : z.hours.value ≤ 23
    · simp [h]
    · simp [h]

/-- A text of the pattern is accepted exactly when it spells a time of the calendar. -/
theorem validMeasuredAt_render (x : StampText) :
    validMeasuredAt (.string x.render) = .ok x.stamp.valid := by
  obtain ⟨h₁, h₂, h₃, h₄, h₅, h₆⟩ := substr_fields x
  have hpair : 0 < 2 ∧ 2 ≤ 9 := by decide
  have hoffset := offset_render x
  simp only [bind, Except.bind, pure, Except.pure] at hoffset
  simp only [validMeasuredAt, matchesPattern_render, h₁, h₂, h₃, h₄, h₅, h₆,
    stoi_run x.year (by decide), stoi_run x.month hpair, stoi_run x.day hpair,
    stoi_run x.hour hpair, stoi_run x.minute hpair, stoi_run x.second hpair, bind, Except.bind,
    pure, Except.pure]
  rw [if_neg (by simp)]
  have hvalid : x.stamp.valid = (decide (1 ≤ x.year.value) &&
      (decide (1 ≤ x.day.value) && decide (x.day.value ≤ monthDays x.year.value x.month.value)) &&
      (decide (x.hour.value ≤ 23) && decide (x.minute.value ≤ 59) &&
        decide (x.second.value ≤ 59)) && x.stamp.offset.all Offset.valid) := rfl
  split
  · next hfields =>
    -- one of the fields is out of its range, whatever the day
    simp only [Bool.or_eq_true, beq_iff_eq, decide_eq_true_eq] at hfields
    have hinvalid : ¬(1 ≤ x.year.value ∧ (1 ≤ x.day.value ∧
        x.day.value ≤ monthDays x.year.value x.month.value) ∧
        x.hour.value ≤ 23 ∧ x.minute.value ≤ 59 ∧ x.second.value ≤ 59) := by
      rintro ⟨hyear, hday, hhour, hminute, hsecond⟩
      have hmonth := month_range hday
      omega
    rw [hvalid, eq_comm, Except.ok.injEq, Bool.and_eq_false_iff]
    refine .inl ?_
    rw [← Bool.not_eq_true]
    simpa [and_assoc] using hinvalid
  · next hfields =>
    simp only [Bool.or_eq_true, beq_iff_eq, decide_eq_true_eq, not_or] at hfields
    obtain ⟨days, hdays, hmonthDays⟩ :=
      @daysInMonth_eq x.year.value x.month.value ⟨by omega, by omega⟩
    simp only [hdays, hmonthDays]
    have hrest : (decide (1 ≤ x.year.value) && (decide (x.hour.value ≤ 23) &&
        decide (x.minute.value ≤ 59) && decide (x.second.value ≤ 59))) = true := by
      simp only [Bool.and_eq_true, decide_eq_true_eq]
      omega
    split
    · next hday =>
      simp only [Bool.or_eq_true, decide_eq_true_eq] at hday
      have hday : (decide (1 ≤ x.day.value) &&
          decide (x.day.value ≤ monthDays x.year.value x.month.value)) = false := by
        simp only [Bool.and_eq_false_iff, decide_eq_false_iff_not]
        omega
      rw [hvalid, hday]
      simp
    · next hday =>
      simp only [Bool.or_eq_true, decide_eq_true_eq, not_or] at hday
      have hday : (decide (1 ≤ x.day.value) &&
          decide (x.day.value ≤ monthDays x.year.value x.month.value)) = true := by
        simp only [Bool.and_eq_true, decide_eq_true_eq]
        omega
      rw [Bool.and_eq_true] at hrest
      rw [hvalid, hday, hrest.1, hrest.2, Bool.true_and, Bool.true_and, Bool.true_and]
      exact hoffset

/-- The check returns on every value, and accepts the texts that spell a time of the calendar. -/
theorem validMeasuredAt_text (s : Bytes) : ∃ valid, validMeasuredAt (.string s) = .ok valid ∧
    (valid = true ↔ ∃ x : StampText, x.render = s ∧ x.stamp.valid = true) := by
  by_cases hpattern : matchesPattern s = true
  · obtain ⟨x, rfl⟩ := matchesPattern_iff.mp hpattern
    refine ⟨_, validMeasuredAt_render x, fun h => ⟨x, rfl, h⟩, ?_⟩
    rintro ⟨x', hx', h⟩
    -- a text is the rendering of one spelling only
    have hread := readStamp_eq_some.mpr ⟨x, rfl, rfl⟩
    have hread' := readStamp_eq_some.mpr ⟨x', hx', rfl⟩
    rwa [← Option.some.inj (hread'.symm.trans hread)]
  · refine ⟨false, ?_, by simp, ?_⟩
    · simp only [validMeasuredAt, hpattern]
      rfl
    · rintro ⟨x, rfl, -⟩
      exact absurd (matchesPattern_render x) hpattern

end EquipmentMonitoring.Telemetry
