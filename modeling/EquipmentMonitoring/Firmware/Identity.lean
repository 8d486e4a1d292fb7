import EquipmentMonitoring.Foundations.Except
import EquipmentMonitoring.Foundations.Numerals
import Mathlib.Data.List.Nodup

/-!
# Event Identities of a Device (`boot_id.c`, `identity.c`)

Each boot commits a new counter to flash before it uses it, and numbers its events from zero. A
boot can end at any call: the call fails, or power is lost in it. A counter that was set and not
committed may or may not be there at the next boot.

## Layers

- `bootIdCreate`, `identityInit`, `identityNextSequence`: the functions of the source
- `boot`: one boot of `app_main`, as far as identities go
- `history`: the boots of one device
- `identities_never_reused`: no pair of boot id and sequence number is handed out twice
-/

namespace EquipmentMonitoring.Firmware

/-! ## Calls -/

/-- `esp_err_t`, other than `ESP_OK`. -/
inductive EspErr where
  | fail
  | invalidState
  | nvsNotFound
  /-- Any error a driver reports besides those the code tells apart. -/
  | driver (code : Nat)
deriving DecidableEq

/-- Why a function has not returned a result. -/
inductive Halt where
  | error (err : EspErr)
  | powerLoss
deriving DecidableEq

/-- What the environment makes of a call. -/
inductive Call where
  | ok
  | driverError (code : Nat)
  | powerLoss
deriving DecidableEq

def Call.run : Call → Except Halt Unit
  | .ok => .ok ()
  | .driverError code => .error (.error (.driver code))
  | .powerLoss => .error .powerLoss

/-- The calls of one boot up to its identity. -/
structure BootCalls where
  nvsFlashInit : Call
  espEfuseMacGetDefault : Call
  nvsOpen : Call
  nvsGetU64 : Call
  nvsSetU64 : Call
  nvsCommit : Call
  /-- A counter that was set and not committed is there at the next boot. -/
  survives : Bool

/-! ## Boot Ids -/

/-- The factory address. -/
@[ext]
structure Mac where
  bytes : Bytes
  length_eq : bytes.length = 6

/-- `IEMP_BOOT_ID_SIZE`. -/
def bootIdSize : Nat := 30

/-- `%02x`. -/
def hexByte (b : UInt8) : Bytes := numeral 16 2 b.toNat

/-- What `snprintf` writes. -/
def bootIdText (mac : Mac) (counter : UInt64) : Bytes :=
  mac.bytes.flatMap hexByte ++ 0x2D :: numeral 16 16 counter.toNat

/-- `nvs_get_u64` for the key `counter`. -/
def nvsGetU64 (call : Call) (stored : Option UInt64) : Except Halt UInt64 := do
  call.run
  match stored with
  | some counter => return counter
  | none => throw (.error .nvsNotFound)

/-- A device without a counter starts at zero. -/
def readCounter (call : Call) (stored : Option UInt64) : Except Halt UInt64 :=
  match nvsGetU64 call stored with
  | .error (.error .nvsNotFound) => .ok 0
  | result => result

/-- The counter to commit: one more than the stored one. -/
def nextCounter (calls : BootCalls) (stored : Option UInt64) : Except Halt UInt64 := do
  calls.espEfuseMacGetDefault.run
  calls.nvsOpen.run
  let counter ← readCounter calls.nvsGetU64 stored
  if counter = 0xFFFFFFFFFFFFFFFF then throw (.error .invalidState)
  return counter + 1

/-- `boot_id_create`, and the counter that is stored afterwards. -/
def bootIdCreate (mac : Mac) (calls : BootCalls) (stored : Option UInt64) :
    Except Halt Bytes × Option UInt64 :=
  match nextCounter calls stored with
  | .error halt => (.error halt, stored)
  | .ok counter =>
    match (do calls.nvsSetU64.run; calls.nvsCommit.run : Except Halt Unit) with
    -- a write or commit that fails may have reached the flash all the same
    | .error halt => (.error halt, if calls.survives then some counter else stored)
    | .ok () =>
      let out := bootIdText mac counter
      (if out.length = bootIdSize - 1 then .ok out else .error (.error .fail), some counter)

/-! ## Sequence Numbers -/

/-- `identity_t`. -/
structure IdentityContext where
  bootId : Bytes
  nextSequence : UInt64

def identityInit (bootId : Bytes) : Option IdentityContext :=
  if bootId.length = 0 ∨ bootIdSize ≤ bootId.length then none else some ⟨bootId, 0⟩

def identityNextSequence (identity : IdentityContext) : Option Int64 × IdentityContext :=
  if identity.nextSequence > 0x7FFFFFFFFFFFFFFF then (none, identity)
  else (some identity.nextSequence.toInt64,
    { identity with nextSequence := identity.nextSequence + 1 })

/-- The sequence numbers that so many calls hand out. -/
def draw : Nat → IdentityContext → List Int64
  | 0, _ => []
  | calls + 1, identity =>
    match identityNextSequence identity with
    | (some sequence, identity) => sequence :: draw calls identity
    | (none, identity) => draw calls identity

/-! ## Histories -/

/-- A boot: its calls, and how often a sequence number is asked for before it ends. -/
structure Boot where
  calls : BootCalls
  draws : Nat

/-- What a boot that got its identity has handed out. -/
structure Session where
  bootId : Bytes
  sequences : List Int64

/-- `app_main` up to the end of the boot, and the counter that is stored afterwards. -/
def boot (mac : Mac) (b : Boot) (stored : Option UInt64) : Option Session × Option UInt64 :=
  match b.calls.nvsFlashInit.run with
  | .error _ => (none, stored)
  | .ok () =>
    match bootIdCreate mac b.calls stored with
    -- app_main stops here; what bootIdCreate has stored stays
    | (.error _, stored) => (none, stored)
    | (.ok bootId, stored) =>
      match identityInit bootId with
      | none => (none, stored)
      | some identity => (some ⟨identity.bootId, draw b.draws identity⟩, stored)

/-- The sessions of a device, in the order of its boots. -/
def history (mac : Mac) : List Boot → Option UInt64 → List Session
  | [], _ => []
  | b :: boots, stored =>
    match boot mac b stored with
    | (some session, stored) => session :: history mac boots stored
    | (none, stored) => history mac boots stored

/-- The identities a session has handed out. -/
def Session.identities (s : Session) : List (Bytes × Int64) := s.sequences.map fun n => (s.bootId, n)

/-! ## Texts -/

theorem length_flatMap_hexByte (bytes : Bytes) : (bytes.flatMap hexByte).length = 2 * bytes.length := by
  induction bytes with
  | nil => rfl
  | cons b rest ih =>
    rw [List.flatMap_cons, List.length_append, ih, hexByte, length_numeral, List.length_cons]
    omega

theorem length_bootIdText (mac : Mac) (counter : UInt64) : (bootIdText mac counter).length = 29 := by
  rw [bootIdText, List.length_append, length_flatMap_hexByte, mac.length_eq, List.length_cons,
    length_numeral]

example : bootIdText ⟨[0xAA, 0xBB, 0xCC, 0xDD, 0xEE, 0xFF], rfl⟩ 1 =
    ascii "aabbccddeeff-0000000000000001" := by decide

theorem hexByte_injective : Function.Injective hexByte := by
  intro a b h
  have hlt (c : UInt8) : c.toNat < 16 ^ 2 := c.toNat_lt
  exact UInt8.toNat_inj.mp (numeral_injective (by decide) (hlt a) (hlt b) h)

theorem flatMap_hexByte_injective {as bs : Bytes} (h : as.flatMap hexByte = bs.flatMap hexByte) :
    as = bs := by
  induction as generalizing bs with
  | nil =>
    have hlength := congrArg List.length h
    rw [length_flatMap_hexByte, length_flatMap_hexByte] at hlength
    exact (List.length_eq_zero_iff.mp (by simpa using hlength.symm)).symm
  | cons a as ih =>
    cases bs with
    | nil => simp [hexByte, numeral] at h
    | cons b bs =>
      rw [List.flatMap_cons, List.flatMap_cons] at h
      obtain ⟨hhead, htail⟩ := List.append_inj h (by rw [hexByte, hexByte, length_numeral, length_numeral])
      rw [hexByte_injective hhead, ih htail]

/-- Devices with different addresses have different boot ids. -/
theorem bootIdText_mac {mac mac' : Mac} {counter counter' : UInt64}
    (h : bootIdText mac counter = bootIdText mac' counter') : mac = mac' := by
  have hprefix := (List.append_inj h (by
    rw [length_flatMap_hexByte, length_flatMap_hexByte, mac.length_eq, mac'.length_eq])).1
  exact Mac.ext (flatMap_hexByte_injective hprefix)

/-- Boot ids of one device sort like their counters. -/
theorem bootIdText_lt {mac : Mac} {counter counter' : UInt64} (h : counter < counter') :
    bootIdText mac counter < bootIdText mac counter' := by
  have hlt (c : UInt64) : c.toNat < 16 ^ 16 := c.toNat_lt
  have hnumeral := (numeral_append_lt (by decide) (hlt counter) (hlt counter') [] []).mpr
    (.inl (UInt64.lt_iff_toNat_lt.mp h))
  rw [List.append_nil, List.append_nil] at hnumeral
  exact List.append_left_lt (List.Lex.cons hnumeral)

/-! ## One Boot -/

/-- The counter that is counted on from. -/
def counterOf (stored : Option UInt64) : UInt64 := stored.getD 0

theorem readCounter_eq_ok {call : Call} {stored : Option UInt64} {counter : UInt64}
    (h : readCounter call stored = .ok counter) : counter = counterOf stored := by
  cases call with
  | ok =>
    cases stored with
    | none => exact (Except.ok.inj h).symm
    | some c => exact (Except.ok.inj h).symm
  | _ => simp [readCounter, nvsGetU64, Call.run, bind, Except.bind] at h

theorem nextCounter_eq_ok {calls : BootCalls} {stored : Option UInt64} {counter : UInt64}
    (h : nextCounter calls stored = .ok counter) :
    counterOf stored < counterOf stored + 1 ∧ counter = counterOf stored + 1 := by
  simp only [nextCounter, except_bind_eq_ok] at h
  obtain ⟨_, -, _, -, read, hread, h⟩ := h
  rw [readCounter_eq_ok hread] at h
  split at h
  · obtain ⟨_, hthrow, -⟩ := except_bind_eq_ok.mp h
    simp at hthrow
  · next hmax =>
    refine ⟨?_, (except_pure_eq_ok.mp h).symm⟩
    rw [UInt64.lt_iff_toNat_lt, UInt64.toNat_add]
    -- the guard leaves room for one more
    have hne : (counterOf stored).toNat ≠ 0xFFFFFFFFFFFFFFFF := fun heq =>
      hmax (UInt64.toNat_inj.mp heq)
    have hlt := (counterOf stored).toNat_lt
    have hone : (1 : UInt64).toNat = 1 := rfl
    omega

/-- An id that was created is that of some counter. -/
theorem bootIdCreate_eq_ok {mac : Mac} {calls : BootCalls} {stored stored' : Option UInt64}
    {bootId : Bytes} (h : bootIdCreate mac calls stored = (.ok bootId, stored')) :
    ∃ counter, bootId = bootIdText mac counter := by
  unfold bootIdCreate at h
  split at h
  · simp at h
  · next counter hnext =>
    split at h
    · simp at h
    · refine ⟨counter, ?_⟩
      obtain ⟨hout, -⟩ := Prod.mk.inj h
      split at hout
      · exact (Except.ok.inj hout).symm
      · simp at hout

/-- A boot either hands out the id of the next counter, which is then stored, or nothing; the
counter never goes back. -/
theorem boot_cases (mac : Mac) (b : Boot) (stored : Option UInt64) :
    (∃ stored', boot mac b stored = (none, stored') ∧ counterOf stored ≤ counterOf stored') ∨
      (counterOf stored < counterOf stored + 1 ∧
        ∃ bootId, bootId = bootIdText mac (counterOf stored + 1) ∧
          boot mac b stored =
            (some ⟨bootId, draw b.draws ⟨bootId, 0⟩⟩, some (counterOf stored + 1))) := by
  unfold boot
  cases b.calls.nvsFlashInit.run with
  | error halt => exact .inl ⟨stored, rfl, UInt64.le_refl _⟩
  | ok u =>
    cases hnext : nextCounter b.calls stored with
    | error halt => exact .inl ⟨stored, by simp [bootIdCreate, hnext], UInt64.le_refl _⟩
    | ok counter =>
      obtain ⟨hlt, rfl⟩ := nextCounter_eq_ok hnext
      cases hcommit : (do b.calls.nvsSetU64.run; b.calls.nvsCommit.run : Except Halt Unit) with
      | error halt =>
        -- the flash holds the old counter or the new one
        refine .inl ⟨if b.calls.survives then some (counterOf stored + 1) else stored, ?_, ?_⟩
        · simp [bootIdCreate, hnext, hcommit]
        · split
          · exact UInt64.le_of_lt hlt
          · exact UInt64.le_refl _
      | ok u =>
        refine .inr ⟨hlt, _, rfl, ?_⟩
        simp [bootIdCreate, hnext, hcommit, length_bootIdText, bootIdSize, identityInit]

/-! ## Sequence Numbers of a Boot -/

theorem identityNextSequence_cases (identity : IdentityContext) :
    (2 ^ 63 ≤ identity.nextSequence.toNat ∧ identityNextSequence identity = (none, identity)) ∨
      (identity.nextSequence.toNat < 2 ^ 63 ∧ ∃ sequence identity',
        identityNextSequence identity = (some sequence, identity') ∧
          sequence.toInt = identity.nextSequence.toNat ∧
          identity'.nextSequence.toNat = identity.nextSequence.toNat + 1) := by
  have hmax : (0x7FFFFFFFFFFFFFFF : UInt64).toNat = 2 ^ 63 - 1 := rfl
  unfold identityNextSequence
  split
  · next hguard =>
    -- past the largest signed number nothing is handed out, ever
    have hlt := UInt64.lt_iff_toNat_lt.mp hguard
    exact .inl ⟨by omega, rfl⟩
  · next hguard =>
    have hle : identity.nextSequence.toNat < 2 ^ 63 := by
      have hnot : ¬ (0x7FFFFFFFFFFFFFFF : UInt64).toNat < identity.nextSequence.toNat :=
        fun h => hguard (UInt64.lt_iff_toNat_lt.mpr h)
      omega
    refine .inr ⟨hle, _, _, rfl, ?_, ?_⟩
    · exact BitVec.toInt_eq_toNat_of_lt (x := identity.nextSequence.toBitVec)
        (by rw [UInt64.toNat_toBitVec]; omega)
    · have hone : (1 : UInt64).toNat = 1 := rfl
      rw [UInt64.toNat_add]
      omega

/-- The numbers handed out count on from the next one and end with the last of 63 bits. -/
theorem draw_sequences (calls : Nat) (identity : IdentityContext) :
    (draw calls identity).map Int64.toInt =
      (List.range' identity.nextSequence.toNat
        (min calls (2 ^ 63 - identity.nextSequence.toNat))).map Nat.cast := by
  induction calls generalizing identity with
  | zero => simp [draw]
  | succ calls ih =>
    rcases identityNextSequence_cases identity with ⟨hlimit, hnext⟩ | ⟨hlt, s, i, hnext, hs, hi⟩
    · -- at the limit every further call hands out nothing
      have hzero : 2 ^ 63 - identity.nextSequence.toNat = 0 := by omega
      rw [draw, hnext]
      have h := ih identity
      rw [hzero] at h ⊢
      simpa using h
    · rw [draw, hnext]
      have hsucc : min (calls + 1) (2 ^ 63 - identity.nextSequence.toNat) =
          min calls (2 ^ 63 - i.nextSequence.toNat) + 1 := by omega
      rw [List.map_cons, ih i, hsucc, List.range'_succ, List.map_cons, hs, hi]

/-! ## Histories -/

/-- The boot ids of a device are those of an ascending run of counters above the one it started
from. -/
theorem history_counters (mac : Mac) (boots : List Boot) (stored : Option UInt64) :
    ∃ counters : List UInt64,
      (history mac boots stored).map Session.bootId = counters.map (bootIdText mac) ∧
        counters.Pairwise (· < ·) ∧ ∀ c ∈ counters, counterOf stored < c := by
  induction boots generalizing stored with
  | nil => exact ⟨[], rfl, .nil, by simp⟩
  | cons b boots ih =>
    rcases boot_cases mac b stored with ⟨stored', hboot, hle⟩ | ⟨hlt, bootId, rfl, hboot⟩
    · -- a boot that fails has no id; the counter may have been used up
      obtain ⟨counters, hids, hsorted, habove⟩ := ih stored'
      refine ⟨counters, ?_, hsorted, fun c hc => UInt64.lt_of_le_of_lt hle (habove c hc)⟩
      rw [history, hboot]
      exact hids
    · obtain ⟨counters, hids, hsorted, habove⟩ := ih (some (counterOf stored + 1))
      refine ⟨(counterOf stored + 1) :: counters, ?_, .cons habove hsorted, ?_⟩
      · rw [history, hboot, List.map_cons, List.map_cons, hids]
      · intro c hc
        rcases List.mem_cons.mp hc with rfl | hc
        · exact hlt
        · exact UInt64.lt_trans hlt (habove c hc)

/-- The numbers of a boot are zero and its successors, one for each call until they run out. -/
theorem draw_fresh (bootId : Bytes) (calls : Nat) :
    (draw calls ⟨bootId, 0⟩).map Int64.toInt = (List.range (min calls (2 ^ 63))).map Nat.cast := by
  have hdraw := draw_sequences calls ⟨bootId, 0⟩
  have hzero : (0 : UInt64).toNat = 0 := rfl
  rwa [hzero, ← List.range_eq_range'] at hdraw

/-- Each session numbers its events from zero, in turn. -/
theorem history_sequences (mac : Mac) (boots : List Boot) (stored : Option UInt64) :
    ∀ s ∈ history mac boots stored, ∃ n, n ≤ 2 ^ 63 ∧
      s.sequences.map Int64.toInt = (List.range n).map Nat.cast := by
  induction boots generalizing stored with
  | nil => simp [history]
  | cons b boots ih =>
    intro s hs
    rcases boot_cases mac b stored with ⟨stored', hboot, -⟩ | ⟨-, bootId, -, hboot⟩ <;>
      rw [history, hboot] at hs
    · exact ih stored' s hs
    · rcases List.mem_cons.mp hs with rfl | hs
      · exact ⟨_, Nat.min_le_right .., draw_fresh bootId b.draws⟩
      · exact ih _ s hs

theorem nodup_sequences {s : Session} {n : Nat}
    (h : s.sequences.map Int64.toInt = (List.range n).map Nat.cast) : s.sequences.Nodup := by
  refine List.Nodup.of_map Int64.toInt ?_
  rw [h]
  exact List.nodup_range.map Nat.cast_injective

/-- Event identities are unique over all boots of a device, boot ids sort like the boots and have
29 characters, the events of a boot are numbered from zero, devices share no boot id, and at their
limits the counters stop. -/
theorem identities_never_reused (mac : Mac) (boots : List Boot) (stored : Option UInt64) :
    ((history mac boots stored).flatMap Session.identities).Nodup ∧
      (∀ s ∈ history mac boots stored, ∃ n, n ≤ 2 ^ 63 ∧
        s.sequences.map Int64.toInt = (List.range n).map Nat.cast) ∧
      (∀ bootId calls, (draw calls ⟨bootId, 0⟩).map Int64.toInt =
        (List.range (min calls (2 ^ 63))).map Nat.cast) ∧
      ((history mac boots stored).map Session.bootId).Pairwise (· < ·) ∧
      (∀ s ∈ history mac boots stored, s.bootId.length = 29) ∧
      (∀ mac' boots' stored', mac' ≠ mac → ∀ s ∈ history mac boots stored,
        ∀ s' ∈ history mac' boots' stored', s.bootId ≠ s'.bootId) ∧
      (∀ calls, ∃ halt, bootIdCreate mac calls (some 0xFFFFFFFFFFFFFFFF) =
        (.error halt, some 0xFFFFFFFFFFFFFFFF)) ∧
      (∀ identity : IdentityContext, 2 ^ 63 - 1 < identity.nextSequence.toNat →
        identityNextSequence identity = (none, identity)) := by
  obtain ⟨counters, hids, hsorted, -⟩ := history_counters mac boots stored
  have hbootId {mac : Mac} {boots : List Boot} {stored : Option UInt64} {s : Session}
      (hs : s ∈ history mac boots stored) : ∃ c, bootIdText mac c = s.bootId := by
    obtain ⟨counters, hids, -⟩ := history_counters mac boots stored
    have hmem := List.mem_map_of_mem (f := Session.bootId) hs
    rw [hids] at hmem
    obtain ⟨c, -, hc⟩ := List.mem_map.mp hmem
    exact ⟨c, hc⟩
  have hascending : ((history mac boots stored).map Session.bootId).Pairwise (· < ·) := by
    rw [hids, List.pairwise_map]
    exact hsorted.imp fun h => bootIdText_lt h
  refine ⟨?_, history_sequences mac boots stored, draw_fresh, hascending, ?_, ?_, ?_, ?_⟩
  · rw [List.nodup_flatMap]
    refine ⟨fun s hs => ?_, ?_⟩
    · obtain ⟨n, -, hn⟩ := history_sequences mac boots stored s hs
      exact (nodup_sequences hn).map fun a b h => (Prod.mk.inj h).2
    · refine (List.pairwise_map.mp hascending).imp fun hlt => ?_
      -- identities of two sessions differ in their boot ids
      rintro ⟨id, n⟩ hs ht
      obtain ⟨_, -, hs⟩ := List.mem_map.mp hs
      obtain ⟨_, -, ht⟩ := List.mem_map.mp ht
      rw [(Prod.mk.inj hs).1, (Prod.mk.inj ht).1] at hlt
      exact List.lt_irrefl _ hlt
  · intro s hs
    obtain ⟨c, hc⟩ := hbootId hs
    rw [← hc, length_bootIdText]
  · intro mac' boots' stored' hne s hs s' hs' heq
    obtain ⟨c, hc⟩ := hbootId hs
    obtain ⟨c', hc'⟩ := hbootId hs'
    exact hne (bootIdText_mac (hc'.trans (heq.symm.trans hc.symm)))
  · intro calls
    cases hnext : nextCounter calls (some 0xFFFFFFFFFFFFFFFF) with
    | error halt => exact ⟨halt, by simp [bootIdCreate, hnext]⟩
    | ok counter =>
      obtain ⟨hlt, -⟩ := nextCounter_eq_ok hnext
      exact absurd hlt (by decide)
  · intro identity hlimit
    rcases identityNextSequence_cases identity with ⟨-, h⟩ | ⟨hlt, -⟩
    · exact h
    · omega

end EquipmentMonitoring.Firmware
