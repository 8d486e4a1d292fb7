import EquipmentMonitoring.Foundations.Except
import EquipmentMonitoring.Simulator.Events

/-!
# Simulated Runs

The turn for an index depends on the index alone: the number of its boot is the quotient by the
reboot period, its sequence number the remainder. So a run is the list of these turns, however it is
cut into batches, and two events share an identity only if they share quotient and remainder.

## Layers

- `ValidScenario`: what the constructor has checked
- `bootId_injOn`: boots have different ids, whichever id the caller has chosen
- `stateAt`, `eventAt`: the turns of a run in closed form

## Key Results

- `generateEvents_eq`: a run, turn by turn
- `simulated_run`: batches, identities, reboots and counters of every run
-/

namespace EquipmentMonitoring.Simulator

open EquipmentMonitoring.Backend (uuidText)

/-! ## Valid Scenarios -/

/-- What the constructor has checked of the numbers. -/
structure ValidScenario {F : Type} (scenario : Scenario F) : Prop where
  count : 1 ≤ scenario.count ∧ scenario.count ≤ maxEvents
  intervalMs : 1 ≤ scenario.intervalMs
  rebootEvery : 0 ≤ scenario.rebootEvery
  duration : (scenario.count - 1) * scenario.intervalMs ≤ maxCounter

theorem validScenario_of_postInit {F R : Type} {numerics : Numerics F R} {args scenario : Scenario F}
    (h : args.postInit numerics = .ok scenario) : ValidScenario scenario := by
  unfold Scenario.postInit at h
  simp only [except_bind_eq_ok, integer_eq_ok] at h
  obtain ⟨-, -, -, -, -, -, -, hcount, -, hinterval, -, hreboot, h⟩ := h
  split at h
  · simp at h
  · split at h
    · next hrange =>
      split at h
      · obtain rfl := Except.ok.inj h
        exact ⟨hcount, hinterval.1, hreboot.1, hrange.1.2⟩
      · simp at h
    · simp at h

/-! ## Boot Ids -/

theorem uuidText_injective {a b : Fin (2 ^ 128)} (h : uuidText a.val = uuidText b.val) : a = b := by
  -- The text cuts the number into five groups of hexadecimal digits.
  have hgroup {width n m : Nat} (hnm : numeral 16 width n = numeral 16 width m) :
      n % 16 ^ width = m % 16 ^ width := by
    rw [← numeral_mod, ← numeral_mod 16 width m] at hnm
    exact numeral_injective (Nat.le_refl 16) (Nat.mod_lt _ (by positivity))
      (Nat.mod_lt _ (by positivity)) hnm
  simp only [uuidText, List.append_assoc, List.cons_append] at h
  obtain ⟨h₁, h⟩ := List.append_inj h (by simp)
  obtain ⟨h₂, h⟩ := List.append_inj (List.cons.inj h).2 (by simp)
  obtain ⟨h₃, h⟩ := List.append_inj (List.cons.inj h).2 (by simp)
  obtain ⟨h₄, h⟩ := List.append_inj (List.cons.inj h).2 (by simp)
  have g₁ := hgroup h₁
  have g₂ := hgroup h₂
  have g₃ := hgroup h₃
  have g₄ := hgroup h₄
  have g₅ := hgroup (List.cons.inj h).2
  have ha := a.isLt
  have hb := b.isLt
  apply Fin.ext
  omega

section Boots

variable {F : Type} {scenario : Scenario F} {uuid5 : Bytes → Fin (2 ^ 128)}

theorem bootName_injective {n m : Nat} (h : bootName scenario n = bootName scenario m) : n = m := by
  unfold bootName at h
  have hdecimal := List.append_cancel_left (List.append_cancel_right h)
  rw [← digitsValue_decimal n, hdecimal, digitsValue_decimal]

theorem length_derivedId (number : Nat) : (derivedId scenario uuid5 number).length = 36 :=
  Backend.length_uuidText _

/-- No id that is told apart by its prefix is as long as one that is derived. -/
theorem reboot_ne {number other : Nat} :
    ascii "reboot-" ++ derivedId scenario uuid5 number ≠ derivedId scenario uuid5 other := by
  intro h
  have hlength := congrArg List.length h
  rw [List.length_append, length_derivedId, length_derivedId] at hlength
  simp [ascii] at hlength

/-- The numbers whose names are hashed in the first `boots` boots. -/
def hashedNumbers (scenario : Scenario F) (boots : Nat) : Set Nat :=
  {number | number < boots ∧ (number = 0 → scenario.bootId = none)}

theorem otherBootId_inj {boots n m : Nat}
    (huuid : Set.InjOn uuid5 (bootName scenario '' hashedNumbers scenario boots))
    (hn : n ∈ hashedNumbers scenario boots) (hm : m ∈ hashedNumbers scenario boots)
    (h : otherBootId scenario uuid5 n = otherBootId scenario uuid5 m) : n = m := by
  -- Only hashed names are compared through the hash; the fixed spelling is apart from them.
  have hderived (hsame : derivedId scenario uuid5 n = derivedId scenario uuid5 m) : n = m :=
    bootName_injective (huuid (Set.mem_image_of_mem _ hn) (Set.mem_image_of_mem _ hm)
      (uuidText_injective hsame))
  simp only [otherBootId] at h
  split at h
  · split at h
    · exact hderived (List.append_cancel_left h)
    · exact absurd h reboot_ne
  · split at h
    · exact absurd h.symm reboot_ne
    · exact hderived h

/-- An id that is not the caller's choice is not the one the caller has chosen. -/
theorem otherBootId_ne {initial : Bytes} (hinitial : scenario.bootId = some initial) (number : Nat) :
    otherBootId scenario uuid5 number ≠ initial := by
  simp only [otherBootId, hinitial, Option.some.injEq]
  split
  · next hsame =>
    rw [← hsame]
    exact reboot_ne
  · next hother => exact hother

/-- Boots have different ids, whichever id the caller has chosen. -/
theorem bootId_inj {boots n m : Nat}
    (huuid : Set.InjOn uuid5 (bootName scenario '' hashedNumbers scenario boots))
    (hn : n < boots) (hm : m < boots)
    (h : bootId scenario uuid5 n = bootId scenario uuid5 m) : n = m := by
  unfold bootId at h
  cases hinitial : scenario.bootId with
  | none =>
    rw [hinitial] at h
    exact otherBootId_inj huuid ⟨hn, fun _ => hinitial⟩ ⟨hm, fun _ => hinitial⟩ h
  | some initial =>
    rw [hinitial] at h
    simp only at h
    -- the first boot may use the id given, which no later boot takes
    by_cases hn0 : n = 0
    · by_cases hm0 : m = 0
      · rw [hn0, hm0]
      · rw [if_pos hn0, if_neg hm0] at h
        exact absurd h.symm (otherBootId_ne hinitial m)
    · by_cases hm0 : m = 0
      · rw [if_neg hn0, if_pos hm0] at h
        exact absurd h (otherBootId_ne hinitial n)
      · rw [if_neg hn0, if_neg hm0] at h
        exact otherBootId_inj huuid ⟨hn, fun h0 => absurd h0 hn0⟩ ⟨hm, fun h0 => absurd h0 hm0⟩ h

end Boots

/-! ## Turns -/

section Turns

variable {F R : Type} (numerics : Numerics F R) (uuid5 : Bytes → Fin (2 ^ 128))
  (scenario : Scenario F)

/-- The reboot period; without reboots, a quotient by it is 0 and a remainder the number itself. -/
def period : Nat := scenario.rebootEvery.toNat

/-- The random state before the turn for an index: one draw for each turn before it. -/
def rngAt (index : Nat) : R :=
  (fun rng => (numerics.random rng).2)^[index] (numerics.seeded scenario.seed)

/-- The variables in the turn for an index, after its reboot. -/
def turnAt (index : Nat) : RunState R where
  index := index
  bootNumber := index / period scenario
  bootStart := index / period scenario * period scenario
  currentBoot := bootId scenario uuid5 (index / period scenario)
  rng := rngAt numerics scenario index

/-- The variables before the turn for an index: those of the turn before. -/
def stateAt (index : Nat) : RunState R :=
  { turnAt numerics uuid5 scenario (index - 1) with
    index := index
    rng := rngAt numerics scenario index }

def eventAt (index : Nat) : SimulatedEvent F :=
  (turnAt numerics uuid5 scenario index).event numerics scenario
    (numerics.random (rngAt numerics scenario index)).1

/-- A positive multiple of the reboot period. -/
def Restarts (index : Nat) : Prop :=
  index ≠ 0 ∧ scenario.rebootEvery ≠ 0 ∧ scenario.rebootEvery ∣ (index : Int)

variable {numerics uuid5 scenario}

theorem restarts_iff (hvalid : ValidScenario scenario) {index : Nat} :
    Restarts scenario index ↔ index ≠ 0 ∧ index % period scenario = 0 := by
  obtain ⟨every, hevery⟩ := Int.eq_ofNat_of_zero_le hvalid.rebootEvery
  have hperiod : period scenario = every := by rw [period, hevery, Int.toNat_natCast]
  rw [Restarts, hevery, hperiod, Int.natCast_dvd_natCast, Nat.dvd_iff_mod_eq_zero]
  constructor
  · rintro ⟨hindex, -, hmod⟩
    exact ⟨hindex, hmod⟩
  · rintro ⟨hindex, hmod⟩
    refine ⟨hindex, fun hzero => ?_, hmod⟩
    obtain rfl : every = 0 := by omega
    rw [Nat.mod_zero] at hmod
    exact hindex hmod

theorem restarts_succ_iff (hvalid : ValidScenario scenario) {index : Nat} :
    Restarts scenario (index + 1) ↔ period scenario ∣ index + 1 := by
  rw [restarts_iff hvalid, Nat.dvd_iff_mod_eq_zero]
  exact and_iff_right (Nat.succ_ne_zero index)

/-- What the code asks before it reboots. -/
theorem restarts_iff_asked {index : Nat} : Restarts scenario index ↔
    index ≠ 0 ∧ scenario.rebootEvery ≠ 0 ∧ (index : Int) % scenario.rebootEvery = 0 := by
  rw [Restarts, Int.dvd_iff_emod_eq_zero]

/-- The reboot check takes the variables of one turn to those of the next. -/
theorem reboot_stateAt (hvalid : ValidScenario scenario) (index : Nat) :
    (stateAt numerics uuid5 scenario index).reboot uuid5 scenario =
      turnAt numerics uuid5 scenario index := by
  rw [RunState.reboot]
  cases index with
  | zero => rw [if_neg fun h => h.1 rfl]; rfl
  | succ index =>
    have hasked := @restarts_iff_asked F scenario (index + 1)
    have hindex : (stateAt numerics uuid5 scenario (index + 1)).index = index + 1 := rfl
    rw [hindex]
    -- a restart opens the next period, and the turn counts from its start
    by_cases hrestarts : Restarts scenario (index + 1)
    · have hdiv := Nat.succ_div_of_dvd ((restarts_succ_iff hvalid).mp hrestarts)
      have hmul : (index + 1) / period scenario * period scenario = index + 1 :=
        Nat.div_mul_cancel ((restarts_succ_iff hvalid).mp hrestarts)
      rw [if_pos (hasked.mp hrestarts)]
      simp only [stateAt, turnAt, Nat.add_sub_cancel, hmul]
      rw [hdiv]
    · have hdiv := Nat.succ_div_of_not_dvd fun hdvd =>
        hrestarts ((restarts_succ_iff hvalid).mpr hdvd)
      rw [if_neg fun h => hrestarts (hasked.mpr h)]
      simp only [stateAt, turnAt, Nat.add_sub_cancel]
      rw [hdiv]

theorem next_stateAt (hvalid : ValidScenario scenario) {index : Nat}
    (hindex : index < scenario.count.toNat) :
    (stateAt numerics uuid5 scenario index).next numerics uuid5 scenario =
      some (eventAt numerics uuid5 scenario index, stateAt numerics uuid5 scenario (index + 1)) := by
  have hlt : (index : Int) < scenario.count := by omega
  have hrng : rngAt numerics scenario (index + 1) =
      (numerics.random (rngAt numerics scenario index)).2 :=
    Function.iterate_succ_apply' ..
  have hcurrent : (stateAt numerics uuid5 scenario index).index = index := rfl
  rw [RunState.next, hcurrent, if_pos hlt, reboot_stateAt hvalid, stateAt, hrng]
  rfl

theorem next_end (index : Nat) (hindex : scenario.count.toNat ≤ index) :
    (stateAt numerics uuid5 scenario index).next numerics uuid5 scenario = none := by
  have hcurrent : (stateAt numerics uuid5 scenario index).index = index := rfl
  rw [RunState.next, hcurrent, if_neg (by omega)]

/-- A run, turn by turn. -/
theorem generateEvents_eq (hvalid : ValidScenario scenario) :
    generateEvents numerics uuid5 scenario =
      (List.range scenario.count.toNat).map (eventAt numerics uuid5 scenario) := by
  have hstart : RunState.start numerics uuid5 scenario = stateAt numerics uuid5 scenario 0 := by
    simp [RunState.start, stateAt, turnAt, rngAt]
  rw [generateEvents, hstart]
  exact Generator.toList_orbit (fun index hindex => next_stateAt hvalid hindex)
    (next_end _ (Nat.le_refl _))

/-! ## One Event -/

variable (index : Nat)

theorem bootId_eventAt : (eventAt numerics uuid5 scenario index).bootId =
    bootId scenario uuid5 (index / period scenario) := rfl

theorem sequenceNumber_eventAt : (eventAt numerics uuid5 scenario index).sequenceNumber =
    (index % period scenario : Nat) := by
  have hdivision := Nat.div_add_mod index (period scenario)
  have hvalue : (eventAt numerics uuid5 scenario index).sequenceNumber =
      (index : Int) - (index / period scenario * period scenario : Nat) := rfl
  rw [hvalue, Nat.mul_comm]
  omega

theorem deviceUptimeMs_eventAt : (eventAt numerics uuid5 scenario index).deviceUptimeMs =
    (index % period scenario : Nat) * scenario.intervalMs := by
  have hvalue : (eventAt numerics uuid5 scenario index).deviceUptimeMs =
      (eventAt numerics uuid5 scenario index).sequenceNumber * scenario.intervalMs := rfl
  rw [hvalue, sequenceNumber_eventAt]

theorem getElem?_generateEvents (hvalid : ValidScenario scenario) {index : Nat}
    {event : SimulatedEvent F} :
    (generateEvents numerics uuid5 scenario)[index]? = some event ↔
      index < scenario.count.toNat ∧ eventAt numerics uuid5 scenario index = event := by
  rw [generateEvents_eq hvalid, List.getElem?_map, Option.map_eq_some_iff]
  simp only [List.getElem?_eq_some_iff, List.length_range, List.getElem_range]
  constructor
  · rintro ⟨_, ⟨hindex, rfl⟩, hevent⟩
    exact ⟨hindex, hevent⟩
  · rintro ⟨hindex, hevent⟩
    exact ⟨index, ⟨hindex, rfl⟩, hevent⟩

end Turns

/-! ## Whole Runs -/

section Runs

variable {F R : Type} {numerics : Numerics F R} {uuid5 : Bytes → Fin (2 ^ 128)}
  {scenario : Scenario F}

/-- How many boots a run has. -/
def boots (scenario : Scenario F) : Nat := (scenario.count.toNat - 1) / period scenario + 1

/-- The names that are hashed in a run. -/
def namesUsed (scenario : Scenario F) : Set Bytes :=
  bootName scenario '' hashedNumbers scenario (boots scenario)

theorem boot_lt {index : Nat} (hindex : index < scenario.count.toNat) :
    index / period scenario < boots scenario :=
  Nat.lt_succ_of_le (Nat.div_le_div_right (Nat.le_sub_one_of_lt hindex))

/-- Turns with one identity are one turn. -/
theorem identity_inj (huuid : Set.InjOn uuid5 (namesUsed scenario)) {i j : Nat}
    (hi : i < scenario.count.toNat) (hj : j < scenario.count.toNat)
    (h : (eventAt numerics uuid5 scenario i).identity =
      (eventAt numerics uuid5 scenario j).identity) : i = j := by
  obtain ⟨hboot, hsequence⟩ := Prod.mk.inj h
  rw [bootId_eventAt, bootId_eventAt] at hboot
  rw [sequenceNumber_eventAt, sequenceNumber_eventAt] at hsequence
  have hquotient := bootId_inj huuid (boot_lt hi) (boot_lt hj) hboot
  rw [← Nat.div_add_mod i (period scenario), hquotient, Int.ofNat.inj hsequence, Nat.div_add_mod]

theorem identities_nodup (hvalid : ValidScenario scenario)
    (huuid : Set.InjOn uuid5 (namesUsed scenario)) :
    ((generateEvents numerics uuid5 scenario).map SimulatedEvent.identity).Nodup := by
  rw [generateEvents_eq hvalid, List.map_map]
  apply List.Nodup.map_on _ List.nodup_range
  intro i hi j hj h
  exact identity_inj huuid (List.mem_range.mp hi) (List.mem_range.mp hj) h

theorem length_generateEvents (hvalid : ValidScenario scenario) :
    ((generateEvents numerics uuid5 scenario).length : Int) = scenario.count := by
  rw [generateEvents_eq hvalid, List.length_map, List.length_range]
  apply Int.toNat_of_nonneg
  have hcount := hvalid.count.1
  omega

/-- The counters of a run restart at its reboots, and nowhere else; each reboot brings an id that
was not used before it. -/
structure RestartsAtReboots (scenario : Scenario F) (events : List (SimulatedEvent F)) : Prop where
  first : ∀ event, events[0]? = some event → event.sequenceNumber = 0 ∧ event.deviceUptimeMs = 0
  restarts : ∀ index event, index ≠ 0 → events[index]? = some event →
    (event.sequenceNumber = 0 ↔ Restarts scenario index) ∧
      (event.deviceUptimeMs = 0 ↔ Restarts scenario index)
  fresh : ∀ index event, Restarts scenario index → events[index]? = some event →
    ∀ before < index, ∀ earlier, events[before]? = some earlier → earlier.bootId ≠ event.bootId
  continues : ∀ index event next, ¬Restarts scenario (index + 1) → events[index]? = some event →
    events[index + 1]? = some next →
      next.bootId = event.bootId ∧ next.sequenceNumber = event.sequenceNumber + 1 ∧
        next.deviceUptimeMs = event.deviceUptimeMs + scenario.intervalMs

theorem restartsAtReboots (hvalid : ValidScenario scenario)
    (huuid : Set.InjOn uuid5 (namesUsed scenario)) :
    RestartsAtReboots scenario (generateEvents numerics uuid5 scenario) where
  first := by
    intro event hevent
    obtain ⟨-, rfl⟩ := (getElem?_generateEvents hvalid).mp hevent
    rw [sequenceNumber_eventAt, deviceUptimeMs_eventAt]
    simp
  restarts := by
    intro index event hindex hevent
    obtain ⟨-, rfl⟩ := (getElem?_generateEvents hvalid).mp hevent
    have hinterval : scenario.intervalMs ≠ 0 := by
      have hpositive := hvalid.intervalMs
      omega
    rw [sequenceNumber_eventAt, deviceUptimeMs_eventAt, restarts_iff hvalid, mul_eq_zero,
      or_iff_left hinterval, and_iff_right hindex, Int.natCast_eq_zero]
    exact ⟨Iff.rfl, Iff.rfl⟩
  fresh := by
    intro index event hrestarts hevent before hbefore earlier hearlier hsame
    obtain ⟨hindex, rfl⟩ := (getElem?_generateEvents hvalid).mp hevent
    obtain ⟨-, rfl⟩ := (getElem?_generateEvents hvalid).mp hearlier
    obtain ⟨-, hmod⟩ := (restarts_iff hvalid).mp hrestarts
    have hmultiple := Nat.div_add_mod index (period scenario)
    rw [hmod, Nat.add_zero] at hmultiple
    -- an earlier index has a smaller quotient
    have hlt : before / period scenario < index / period scenario :=
      Nat.div_lt_of_lt_mul (by rw [hmultiple]; exact hbefore)
    rw [bootId_eventAt, bootId_eventAt] at hsame
    exact hlt.ne (bootId_inj huuid (boot_lt (hbefore.trans hindex)) (boot_lt hindex) hsame)
  continues := by
    intro index event next hrestarts hevent hnext
    obtain ⟨-, rfl⟩ := (getElem?_generateEvents hvalid).mp hevent
    obtain ⟨-, rfl⟩ := (getElem?_generateEvents hvalid).mp hnext
    have hquotient := Nat.succ_div_of_not_dvd fun hdvd =>
      hrestarts ((restarts_succ_iff hvalid).mpr hdvd)
    have hthis := Nat.div_add_mod index (period scenario)
    have hthat := Nat.div_add_mod (index + 1) (period scenario)
    rw [hquotient] at hthat
    have hremainder : (index + 1) % period scenario = index % period scenario + 1 := by omega
    rw [bootId_eventAt, bootId_eventAt, sequenceNumber_eventAt, sequenceNumber_eventAt,
      deviceUptimeMs_eventAt, deviceUptimeMs_eventAt, hquotient, hremainder]
    refine ⟨rfl, Nat.cast_succ _, ?_⟩
    push_cast
    ring

theorem counters_le (hvalid : ValidScenario scenario) {event : SimulatedEvent F}
    (hevent : event ∈ generateEvents numerics uuid5 scenario) :
    (0 ≤ event.sequenceNumber ∧ event.sequenceNumber ≤ maxCounter) ∧
      0 ≤ event.deviceUptimeMs ∧ event.deviceUptimeMs ≤ maxCounter := by
  rw [generateEvents_eq hvalid, List.mem_map] at hevent
  obtain ⟨index, hindex, rfl⟩ := hevent
  have hlt := List.mem_range.mp hindex
  have hmod := Nat.mod_le index (period scenario)
  obtain ⟨-, hcount⟩ := hvalid.count
  have hinterval := hvalid.intervalMs
  have hmax : (maxEvents : Int) ≤ maxCounter := by decide
  -- The counters stay below the number of events, which the scenario bounds.
  have hremainder : ((index % period scenario : Nat) : Int) ≤ scenario.count - 1 := by omega
  rw [sequenceNumber_eventAt, deviceUptimeMs_eventAt]
  refine ⟨⟨Int.natCast_nonneg _, by omega⟩, ?_, ?_⟩
  · exact mul_nonneg (Int.natCast_nonneg _) (by omega)
  · exact (mul_le_mul_of_nonneg_right hremainder (by omega)).trans hvalid.duration

/-- The batches are the run, cut after every `batchSize` events. -/
theorem batches_eq_ok {batchSize : Int} (hsize : 1 ≤ batchSize ∧ batchSize ≤ 500) :
    ∃ made, batches numerics uuid5 scenario batchSize = .ok made ∧
      made.flatMap Batch.events = generateEvents numerics uuid5 scenario ∧
      (∀ batch ∈ made.dropLast, (batch.events.length : Int) = batchSize) ∧
      ∀ batch ∈ made, batch.events ≠ [] := by
  have hpositive : 0 < batchSize.toNat := by omega
  refine ⟨_, except_bind_eq_ok.mpr ⟨(), integer_eq_ok.mpr hsize, rfl⟩, ?_, ?_, ?_⟩
  · rw [List.flatMap_map]
    simp only [List.flatMap_id']
    exact Generator.flatten_chunks hpositive _
  · intro batch hbatch
    rw [← List.map_dropLast, List.mem_map] at hbatch
    obtain ⟨chunk, hchunk, rfl⟩ := hbatch
    have hlength := Generator.length_of_mem_dropLast hchunk
    simp only
    omega
  · intro batch hbatch
    obtain ⟨chunk, hchunk, rfl⟩ := List.mem_map.mp hbatch
    exact Generator.ne_nil_of_mem_chunks hchunk

/-- Number, batches, identities, reboots and counters of the events of a valid scenario. -/
theorem simulated_run (numerics : Numerics F R) (uuid5 : Bytes → Fin (2 ^ 128))
    (args scenario : Scenario F) (batchSize : Int)
    (hscenario : args.postInit numerics = .ok scenario)
    (hsize : 1 ≤ batchSize ∧ batchSize ≤ 500)
    (huuid : Set.InjOn uuid5 (namesUsed scenario)) :
    let events := generateEvents numerics uuid5 scenario
    (events.length : Int) = scenario.count ∧
    (∃ made, batches numerics uuid5 scenario batchSize = .ok made ∧
      made.flatMap Batch.events = events ∧
      (∀ batch ∈ made.dropLast, (batch.events.length : Int) = batchSize) ∧
      ∀ batch ∈ made, batch.events ≠ []) ∧
    (events.map SimulatedEvent.identity).Nodup ∧
    RestartsAtReboots scenario events ∧
    ∀ event ∈ events, (0 ≤ event.sequenceNumber ∧ event.sequenceNumber ≤ maxCounter) ∧
      0 ≤ event.deviceUptimeMs ∧ event.deviceUptimeMs ≤ maxCounter := by
  have hvalid := validScenario_of_postInit hscenario
  exact ⟨length_generateEvents hvalid, batches_eq_ok hsize, identities_nodup hvalid huuid, restartsAtReboots hvalid huuid,
    fun event hevent => counters_le hvalid hevent⟩

end Runs

/-! ## A Run -/

/-- Exact numbers, for a profile that needs no others; the draws are those of seed 0. -/
def sampleNumerics : Numerics ℚ Nat where
  ofInt := Int.cast
  add := (· + ·)
  sub := (· - ·)
  mul := (· * ·)
  div := (· / ·)
  sin := id
  tau := 710 / 113
  isFinite _ := true
  isNegative x := decide (x < 0)
  round6 := id
  seeded _ := 0
  random n :=
    ([0.8444218515250481, 0.7579544029403025, 0.420571580830845, 0.25891675029296335,
      0.5112747213686085].getD n 0, n + 1)

/-- Five events, with a reboot before every third. -/
def sampleArgs : Scenario ℚ where
  deviceId := ascii "device-test"
  runId := ascii "scenario-test"
  bootId := none
  seed := 0
  count := 5
  intervalMs := 250
  startTime := ⟨Rfc3339.daysBeforeYear 2026 * 86400000000, some 0⟩
  rebootEvery := 2
  profile := ⟨.constant, 25, 0.1, 5, 60, 0⟩

/-- `uuid5` on the names of the run. -/
def sampleUuid5 (name : Bytes) : Fin (2 ^ 128) :=
  if name = ascii "[\"1\", \"scenario-test\", \"device-test\", null, 0]" then
    0xa7c75326adaf50e9b3c88f6b773b9789
  else if name = ascii "[\"1\", \"scenario-test\", \"device-test\", null, 1]" then
    0x220ebb126e6c5eb5b97edeebf567896b
  else if name = ascii "[\"1\", \"scenario-test\", \"device-test\", null, 2]" then
    0xf948dae9d32d54c696b5c44597bcbb84
  else 0

theorem sampleUuid5_injOn : Set.InjOn sampleUuid5 (namesUsed sampleArgs) := by
  have hdistinct : ∀ n m : Fin 3, sampleUuid5 (bootName sampleArgs n) =
      sampleUuid5 (bootName sampleArgs m) → n = m := by decide +kernel
  have hboots : boots sampleArgs = 3 := by decide
  rintro _ ⟨n, ⟨hn, -⟩, rfl⟩ _ ⟨m, ⟨hm, -⟩, rfl⟩ h
  rw [hboots] at hn hm
  have hsame := hdistinct ⟨n, hn⟩ ⟨m, hm⟩ h
  rw [Fin.mk.inj hsame]

theorem simulated_run_sample :
    (generateEvents sampleNumerics sampleUuid5 sampleArgs).length = 5 ∧
    (∃ made, batches sampleNumerics sampleUuid5 sampleArgs 3 = .ok made ∧
      made.flatMap Batch.events = generateEvents sampleNumerics sampleUuid5 sampleArgs) ∧
    ((generateEvents sampleNumerics sampleUuid5 sampleArgs).map SimulatedEvent.identity).Nodup := by
  obtain ⟨hlength, ⟨made, hmade, hevents, -⟩, hidentities, -⟩ := simulated_run sampleNumerics
    sampleUuid5 sampleArgs sampleArgs 3 rfl (by decide) sampleUuid5_injOn
  exact ⟨Int.ofNat_inj.mp hlength, ⟨made, hmade, hevents⟩, hidentities⟩

end EquipmentMonitoring.Simulator
