import EquipmentMonitoring.Foundations.Numerals
import Mathlib.Data.List.Induction
import Mathlib.Data.List.Infix
import Mathlib.Data.List.ReduceOption

/-!
# Typed Temperatures (`sampling.c`, `temperature_input.c`)

The serial console edits a line character by character in a buffer of 48 octets. What it cannot keep
it ignores, without an echo: control characters, octets beyond ASCII, and all that no longer fits.
The line that is parsed and published is the one that was kept.

## Layers

1. `manualInputTask`: the console, octet by octet
2. `edited`, `kept`: a typed line with its corrections, and the part of it that the buffer holds

## Key Results

- `published_eq`: the console publishes what each kept line stands for
- `kept_eq_edited_iff`: nothing of a line is missing exactly if nothing was ignored since the line
  was last empty
- `console_readings`: so such lines are treated as `temperature_input_parse` treats them
-/

namespace EquipmentMonitoring.Firmware

/-! ## Parsing -/

/-- `IEMP_TEMPERATURE_INPUT_MAX_LENGTH`. -/
def maxInputLength : Nat := 47

/-- `temperature_input_parse`, where `convert` reads a C string as a number in range. -/
def temperatureInputParse {α : Type} (convert : Bytes → Option α) (text : Bytes) : Option α :=
  if text.isEmpty ∨ maxInputLength < text.length ∨ 0 ∈ text then none else convert text

/-! ## The Console -/

/-- The buffer up to `used`, and the readings handed to `telemetry_submit_temperature`. -/
structure Console (α : Type) where
  line : Bytes
  published : List α

/-- `publish_typed_temperature`, on the buffer up to its first zero. -/
def publishTypedTemperature {α : Type} (convert : Bytes → Option α) (buffer : Bytes)
    (published : List α) : List α :=
  match temperatureInputParse convert (buffer.takeWhile (· ≠ 0)) with
  | none => published
  | some value => published ++ [value]

def isLineEnd (ch : UInt8) : Bool := ch = 0x0D || ch = 0x0A

def isErase (ch : UInt8) : Bool := ch = 0x08 || ch = 0x7F

def isPrintable (ch : UInt8) : Bool := 32 ≤ ch && ch ≤ 126

/-- One turn of `manual_input_task`; `fgetc` returns an octet or `EOF`. -/
def Console.step {α : Type} (convert : Bytes → Option α) (self : Console α) :
    Option UInt8 → Console α
  | none => self
  | some ch =>
    if isLineEnd ch then
      if self.line.length = 0 then self
      else ⟨[], publishTypedTemperature convert (self.line ++ [0]) self.published⟩
    else if isErase ch then
      if 0 < self.line.length then { self with line := self.line.dropLast } else self
    -- `used + 1 >= sizeof(line)`
    else if ¬isPrintable ch ∨ maxInputLength + 1 ≤ self.line.length + 1 then self
    else { self with line := self.line ++ [ch] }

def manualInputTask {α : Type} (convert : Bytes → Option α) (input : List (Option UInt8)) :
    Console α :=
  input.foldl (Console.step convert) ⟨[], []⟩

/-! ## Typed Lines -/

/-- The lines of a stream that have been ended, the first of which begins with `line`. -/
def endedLines (line : Bytes) : Bytes → List Bytes
  | [] => []
  | ch :: rest => if isLineEnd ch then line :: endedLines [] rest else endedLines (line ++ [ch]) rest

/-- One more octet, corrections applied. -/
def edit (text : Bytes) (ch : UInt8) : Bytes :=
  if isErase ch then text.dropLast else text ++ [ch]

/-- A typed line with its corrections applied. -/
def edited (line : Bytes) : Bytes := line.foldl edit []

/-- One more octet in a buffer that ignores what it cannot keep. -/
def keep (text : Bytes) (ch : UInt8) : Bytes :=
  if isErase ch then text.dropLast
  else if isPrintable ch ∧ text.length < maxInputLength then text ++ [ch]
  else text

/-- What the buffer holds of a typed line. -/
def kept (line : Bytes) : Bytes := line.foldl keep []

/-- Since the line was last empty, only printable characters and corrections were typed, and never
more than the buffer holds. -/
def Clean (line : Bytes) : Prop :=
  ∃ erased rest, line = erased ++ rest ∧ edited erased = [] ∧
    (∀ ch ∈ rest, isErase ch = true ∨ isPrintable ch = true) ∧
    ∀ typed, typed <+: rest → (edited typed).length ≤ maxInputLength

theorem edited_concat (line : Bytes) (ch : UInt8) :
    edited (line ++ [ch]) = edit (edited line) ch := by
  rw [edited, List.foldl_append]
  rfl

theorem kept_concat (line : Bytes) (ch : UInt8) : kept (line ++ [ch]) = keep (kept line) ch := by
  rw [kept, List.foldl_append]
  rfl

/-- Once a line has been erased, what comes after it counts alone. -/
theorem edited_append {erased : Bytes} (h : edited erased = []) (rest : Bytes) :
    edited (erased ++ rest) = edited rest := by
  rw [edited, List.foldl_append, ← edited, h]
  rfl

/-! ## Lines Without Loss -/

/-- A line stays clean with a correction, and with a character that fits. -/
theorem Clean.concat {line : Bytes} (h : Clean line) {ch : UInt8}
    (hch : isErase ch = true ∨ isPrintable ch = true ∧ (edited line).length < maxInputLength) :
    Clean (line ++ [ch]) := by
  -- The new byte joins the part typed after the last stray erasure.
  obtain ⟨erased, rest, rfl, herased, htyped, hfits⟩ := h
  rw [edited_append herased] at hch
  refine ⟨erased, rest ++ [ch], List.append_assoc .., herased, ?_, fun typed hstart => ?_⟩
  · intro c hc
    rcases List.mem_append.mp hc with hc | hc
    · exact htyped c hc
    · rw [List.mem_singleton.mp hc]
      exact hch.imp_right fun h => h.1
  · rcases List.prefix_concat_iff.mp hstart with rfl | hstart
    · have hrest := hfits rest (List.prefix_refl _)
      rw [edited_concat, edit]
      split
      · rw [List.length_dropLast]
        omega
      · next herase =>
        have hroom := (hch.resolve_left herase).2
        simp only [List.length_append, List.length_singleton]
        omega
    · exact hfits typed hstart

/-- Either nothing has been lost, or the buffer holds less than was typed. -/
theorem clean_or_shorter (line : Bytes) :
    Clean line ∧ kept line = edited line ∨ (kept line).length < (edited line).length := by
  induction line using List.reverseRecOn with
  | nil =>
    refine .inl ⟨⟨[], [], rfl, rfl, by simp, fun typed hstart => ?_⟩, rfl⟩
    rw [List.prefix_nil.mp hstart]
    exact Nat.zero_le _
  | append_singleton line ch ih =>
    rw [edited_concat, kept_concat, edit, keep]
    by_cases herase : isErase ch = true
    · rw [if_pos herase, if_pos herase]
      rcases ih with ⟨hclean, hsame⟩ | hshorter
      · exact .inl ⟨hclean.concat (.inl herase), by rw [hsame]⟩
      · by_cases hone : (edited line).length = 1
        · -- the only character left is one that was lost: the line is empty again
          have hempty : (edited line).dropLast = [] :=
            List.length_eq_zero_iff.mp (by rw [List.length_dropLast]; omega)
          have hnone : kept line = [] := List.length_eq_zero_iff.mp (by omega)
          refine .inl ⟨⟨line ++ [ch], [], (List.append_nil _).symm, ?_, by simp, ?_⟩, ?_⟩
          · rw [edited_concat, edit, if_pos herase, hempty]
          · intro typed hstart
            rw [List.prefix_nil.mp hstart]
            exact Nat.zero_le _
          · rw [hnone, hempty]
            rfl
        · refine .inr ?_
          simp only [List.length_dropLast]
          omega
    · rw [if_neg herase, if_neg herase]
      by_cases hkeeps : isPrintable ch = true ∧ (kept line).length < maxInputLength
      · rw [if_pos hkeeps]
        rcases ih with ⟨hclean, hsame⟩ | hshorter
        · rw [hsame] at hkeeps ⊢
          exact .inl ⟨hclean.concat (.inr hkeeps), rfl⟩
        · refine .inr ?_
          simp only [List.length_append, List.length_singleton]
          omega
      · rw [if_neg hkeeps]
        refine .inr ?_
        have hle : (kept line).length ≤ (edited line).length := by
          rcases ih with ⟨-, hsame⟩ | hshorter
          · rw [hsame]
          · omega
        simp only [List.length_append, List.length_singleton]
        omega

theorem kept_length_le (line : Bytes) : (kept line).length ≤ (edited line).length := by
  rcases clean_or_shorter line with ⟨-, hsame⟩ | hshorter
  · rw [hsame]
  · exact hshorter.le

/-- The buffer holds all of a clean line. -/
theorem Clean.kept_eq {line : Bytes} (h : Clean line) : kept line = edited line := by
  obtain ⟨erased, rest, rfl, herased, htyped, hfits⟩ := h
  have hempty : kept erased = [] := by
    have hle := kept_length_le erased
    rw [herased, List.length_nil] at hle
    exact List.length_eq_zero_iff.mp (Nat.le_zero.mp hle)
  rw [edited_append herased]
  -- the rest is kept character by character
  have hstarts (typed : Bytes) (hstart : typed <+: rest) :
      kept (erased ++ typed) = edited typed := by
    induction typed using List.reverseRecOn with
    | nil => rw [List.append_nil, hempty]; rfl
    | append_singleton typed ch ih =>
      have hbefore : typed <+: rest := (List.prefix_append typed [ch]).trans hstart
      rw [← List.append_assoc, kept_concat, ih hbefore, edited_concat, keep, edit]
      split
      · rfl
      · next herase =>
        have hprintable := (htyped ch (hstart.subset (by simp))).resolve_left herase
        have hlength := hfits _ hstart
        rw [edited_concat, edit, if_neg herase, List.length_append, List.length_singleton] at hlength
        exact if_pos ⟨hprintable, by omega⟩
  exact hstarts rest (List.prefix_refl rest)

/-- Nothing of a line is missing exactly if nothing was ignored since it was last empty. -/
theorem kept_eq_edited_iff (line : Bytes) : kept line = edited line ↔ Clean line := by
  constructor
  · intro hsame
    rcases clean_or_shorter line with ⟨hclean, -⟩ | hshorter
    · exact hclean
    · rw [hsame] at hshorter
      exact absurd hshorter (lt_irrefl _)
  · exact Clean.kept_eq

/-! ## The Stream -/

theorem isPrintable_of_mem_kept {line : Bytes} {ch : UInt8} (h : ch ∈ kept line) :
    isPrintable ch = true := by
  induction line using List.reverseRecOn with
  | nil => simp [kept] at h
  | append_singleton line c ih =>
    rw [kept_concat, keep] at h
    split at h
    · exact ih (List.mem_of_mem_dropLast h)
    · split at h
      · next hkeeps =>
        rcases List.mem_append.mp h with h | h
        · exact ih h
        · rw [List.mem_singleton.mp h]
          exact hkeeps.1
      · exact ih h

/-- The buffer up to its first zero is what was kept. -/
theorem cString_kept (line : Bytes) : (kept line ++ [0]).takeWhile (· ≠ 0) = kept line := by
  have hnonzero : ∀ ch ∈ kept line, decide (ch ≠ 0) = true := by
    intro ch hch
    have hprintable := isPrintable_of_mem_kept hch
    simp only [decide_eq_true_eq]
    rintro rfl
    exact absurd hprintable (by decide)
  rw [List.takeWhile_append_of_pos hnonzero]
  simp

section Stream

variable {α : Type} (convert : Bytes → Option α)

/-- One character of a line that has not been ended. -/
theorem step_of_open {ch : UInt8} (h : isLineEnd ch = false) (line : Bytes) (published : List α) :
    Console.step convert ⟨kept line, published⟩ (some ch) = ⟨kept (line ++ [ch]), published⟩ := by
  rw [kept_concat, keep]
  simp only [Console.step, h, Bool.false_eq_true, if_false]
  by_cases herase : isErase ch = true
  · rw [if_pos herase, if_pos herase]
    split
    · rfl
    · next hempty =>
      -- erasing from an empty line does nothing, in the loop and in the fold
      have hnone : kept line = [] := List.length_eq_zero_iff.mp (by omega)
      rw [hnone]
      rfl
  · rw [if_neg herase, if_neg herase]
    by_cases hkeeps : isPrintable ch = true ∧ (kept line).length < maxInputLength
    · rw [if_pos hkeeps, if_neg]
      rintro (hcontrol | hfull)
      · exact hcontrol hkeeps.1
      · omega
    · rw [if_neg hkeeps, if_pos]
      by_contra hnot
      simp only [not_or, not_not, not_le] at hnot
      exact hkeeps ⟨hnot.1, by omega⟩

/-- The end of a line publishes what was kept of it, and empties the buffer. -/
theorem step_of_end {ch : UInt8} (h : isLineEnd ch = true) (line : Bytes) (published : List α) :
    Console.step convert ⟨kept line, published⟩ (some ch) =
      ⟨kept [], published ++ (temperatureInputParse convert (kept line)).toList⟩ := by
  simp only [Console.step, h, if_true]
  split
  · next hempty =>
    -- an empty line is not parsed, and would be rejected
    have hnone : kept line = [] := List.length_eq_zero_iff.mp hempty
    rw [hnone]
    simp [temperatureInputParse, kept]
  · rw [publishTypedTemperature, cString_kept]
    cases temperatureInputParse convert (kept line) with
    | none => simp [kept]
    | some value => rfl

theorem published_from (input : List (Option UInt8)) (line : Bytes) (published : List α) :
    (input.foldl (Console.step convert) ⟨kept line, published⟩).published = published ++
      (endedLines line input.reduceOption).filterMap fun line =>
        temperatureInputParse convert (kept line) := by
  -- Induction on the bytes still to come: a line end closes the line held so far.
  induction input generalizing line published with
  | nil => simp [endedLines, List.reduceOption]
  | cons read rest ih =>
    cases read with
    | none => exact ih line published
    | some ch =>
      rw [List.foldl_cons, List.reduceOption_cons_of_some, endedLines]
      by_cases hend : isLineEnd ch = true
      · rw [step_of_end convert hend, ih, if_pos hend, List.filterMap_cons]
        cases temperatureInputParse convert (kept line) with
        | none => simp
        | some value => simp
      · rw [step_of_open convert (by simpa using hend), ih, if_neg hend]

/-- The console publishes what each kept line stands for. -/
theorem published_eq (input : List (Option UInt8)) :
    (manualInputTask convert input).published =
      (endedLines [] input.reduceOption).filterMap fun line =>
        temperatureInputParse convert (kept line) := by
  rw [manualInputTask]
  exact published_from convert input [] []

/-- The console publishes what each kept line stands for, and keeps a typed line whole exactly if
nothing of it was ignored since it was last empty. -/
theorem console_readings (input : List (Option UInt8)) :
    (manualInputTask convert input).published =
        (endedLines [] input.reduceOption).filterMap
          (fun line => temperatureInputParse convert (kept line)) ∧
      ∀ line, kept line = edited line ↔ Clean line :=
  ⟨published_eq convert input, kept_eq_edited_iff⟩

end Stream

/-- Whole degrees, as `strtof` reads a run of digits. -/
def wholeDegrees (text : Bytes) : Option Nat :=
  if text.all Json.isDigit ∧ Json.digitsValue text ≤ 125 then some (Json.digitsValue text) else none

/-- `2`, a control character, `3` is published as 23, and so are forty-five zeros, `23` and `456`;
`temperature_input_parse` accepts neither line. -/
theorem dropped_characters_published :
    let control : Bytes := [0x32, 0x01, 0x33]
    let long : Bytes := List.replicate 45 0x30 ++ [0x32, 0x33, 0x34, 0x35, 0x36]
    (∀ line ∈ [control, long],
      temperatureInputParse wholeDegrees (edited line) = none ∧
      (manualInputTask wholeDegrees ((line ++ [0x0A]).map some)).published = [23]) ∧
    edited control = control ∧ edited long = long := by
  decide +kernel

end EquipmentMonitoring.Firmware
