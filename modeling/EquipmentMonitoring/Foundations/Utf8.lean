import Mathlib.Data.List.Basic

/-!
# Byte strings and UTF-8

A byte string is a list of octets. UTF-8 well-formedness (RFC 3629 §4) is decided by one pass
that carries the ranges the next continuation octets must fall in.

## Key Results

- `valid_append`: well-formed strings concatenate
- `valid_flatMap`: replacing ASCII octets by ASCII keeps a string well-formed
-/

namespace EquipmentMonitoring

abbrev Bytes := List UInt8

/-- The octets of an ASCII literal. -/
def ascii (s : String) : Bytes :=
  s.toList.map fun c => c.toNat.toUInt8

/-- A text that is written octet by octet, each in at most so many octets. -/
theorem length_flatMap_le {f : UInt8 → Bytes} {text : Bytes} {width : Nat}
    (h : ∀ b ∈ text, (f b).length ≤ width) : (text.flatMap f).length ≤ width * text.length := by
  induction text with
  | nil => simp
  | cons b rest ih =>
    have hb := h b (List.mem_cons_self ..)
    have hrest := ih fun c hc => h c (List.mem_cons_of_mem _ hc)
    rw [List.flatMap_cons, List.length_append, List.length_cons, Nat.mul_succ]
    omega

namespace Utf8

/-! ## Well-formedness -/

/-- The ranges of the continuation octets that a leading octet announces. -/
def owed (b : UInt8) : Option (List (UInt8 × UInt8)) :=
  if b ≤ 0x7F then some []
  else if 0xC2 ≤ b ∧ b ≤ 0xDF then some [(0x80, 0xBF)]
  else if b = 0xE0 then some [(0xA0, 0xBF), (0x80, 0xBF)]
  else if b = 0xED then some [(0x80, 0x9F), (0x80, 0xBF)]
  else if 0xE1 ≤ b ∧ b ≤ 0xEF then some [(0x80, 0xBF), (0x80, 0xBF)]
  else if b = 0xF0 then some [(0x90, 0xBF), (0x80, 0xBF), (0x80, 0xBF)]
  else if 0xF1 ≤ b ∧ b ≤ 0xF3 then some [(0x80, 0xBF), (0x80, 0xBF), (0x80, 0xBF)]
  else if b = 0xF4 then some [(0x80, 0x8F), (0x80, 0xBF), (0x80, 0xBF)]
  else none

/-- Well-formedness of what is left of a text while `pending` continuation octets are owed. -/
def validFrom : List (UInt8 × UInt8) → Bytes → Bool
  | [], [] => true
  | _ :: _, [] => false
  | (low, high) :: pending, b :: rest => decide (low ≤ b ∧ b ≤ high) && validFrom pending rest
  | [], b :: rest =>
    match owed b with
    | some pending => validFrom pending rest
    | none => false

/-- The octets are well-formed UTF-8. -/
def valid (s : Bytes) : Bool := validFrom [] s

@[simp] theorem valid_nil : valid [] = true := rfl

theorem validFrom_append {pending : List (UInt8 × UInt8)} {s t : Bytes}
    (hs : validFrom pending s = true) (ht : valid t = true) :
    validFrom pending (s ++ t) = true := by
  induction s generalizing pending with
  | nil =>
    cases pending with
    | nil => exact ht
    | cons _ _ => simp [validFrom] at hs
  | cons b rest ih =>
    cases pending with
    | nil =>
      simp only [List.cons_append, validFrom] at hs ⊢
      cases hb : owed b with
      | none => simp [hb] at hs
      | some next =>
        simp only [hb] at hs ⊢
        exact ih hs
    | cons range pending =>
      obtain ⟨low, high⟩ := range
      simp only [List.cons_append, validFrom, Bool.and_eq_true] at hs ⊢
      exact ⟨hs.1, ih hs.2⟩

/-- Well-formed strings concatenate. -/
theorem valid_append {s t : Bytes} (hs : valid s = true) (ht : valid t = true) :
    valid (s ++ t) = true :=
  validFrom_append hs ht

/-- ASCII octets stand alone. -/
theorem valid_of_ascii {s : Bytes} (h : ∀ b ∈ s, b ≤ 0x7F) : valid s = true := by
  induction s with
  | nil => rfl
  | cons b rest ih =>
    have hb : owed b = some [] := by simp [owed, h b (List.mem_cons_self ..)]
    simp only [valid, validFrom, hb]
    exact ih fun c hc => h c (List.mem_cons_of_mem _ hc)

theorem valid_cons_ascii {b : UInt8} {s : Bytes} (hb : b ≤ 0x7F) (hs : valid s = true) :
    valid (b :: s) = true :=
  valid_append (s := [b]) (valid_of_ascii (by simpa using hb)) hs

/-- A property of octets is checked on all of them. -/
theorem forall_octet {p : UInt8 → Bool}
    (h : ((List.range 256).all fun n => p (UInt8.ofNat n)) = true) (b : UInt8) : p b = true := by
  have hb := List.all_eq_true.mp h b.toNat (List.mem_range.mpr b.toNat_lt)
  rwa [UInt8.ofNat_toNat] at hb

/-- Continuation octets are not ASCII. -/
theorem owed_ge {b : UInt8} {pending : List (UInt8 × UInt8)} (h : owed b = some pending) :
    ∀ range ∈ pending, 0x80 ≤ range.1 := by
  have hb : ((owed b).all fun pending => pending.all fun range => decide (0x80 ≤ range.1)) = true :=
    forall_octet (p := fun b => (owed b).all fun pending => pending.all fun range =>
      decide (0x80 ≤ range.1)) (by decide +kernel) b
  simpa [h] using hb

theorem validFrom_ascii_append {u : Bytes} (hu : ∀ b ∈ u, b ≤ 0x7F) (s : Bytes) :
    validFrom [] (u ++ s) = validFrom [] s := by
  induction u with
  | nil => rfl
  | cons b rest ih =>
    have hb : owed b = some [] := by simp [owed, hu b (List.mem_cons_self ..)]
    simp only [List.cons_append, validFrom, hb]
    exact ih fun c hc => hu c (List.mem_cons_of_mem _ hc)

theorem validFrom_flatMap {f : UInt8 → Bytes}
    (hf : ∀ b, if b ≤ 0x7F then ∀ c ∈ f b, c ≤ 0x7F else f b = [b]) {s : Bytes}
    {pending : List (UInt8 × UInt8)} (hpending : ∀ range ∈ pending, 0x80 ≤ range.1)
    (h : validFrom pending s = true) : validFrom pending (s.flatMap f) = true := by
  induction s generalizing pending with
  | nil => simpa using h
  | cons b rest ih =>
    have hb := hf b
    rw [List.flatMap_cons]
    cases pending with
    | nil =>
      simp only [validFrom] at h
      split at h
      · next next howed =>
        have hrest := ih (owed_ge howed) h
        split at hb
        · next hascii =>
          obtain rfl : next = [] := by simpa [owed, hascii, eq_comm] using howed
          rw [validFrom_ascii_append hb]
          exact hrest
        · rw [hb, List.singleton_append, validFrom, howed]
          exact hrest
      · simp at h
    | cons range pending =>
      obtain ⟨low, high⟩ := range
      simp only [validFrom, Bool.and_eq_true, decide_eq_true_eq] at h
      have hlow : 0x80 ≤ low := hpending _ (List.mem_cons_self ..)
      -- A continuation byte is not ASCII, so it is written as it is.
      have hnot : ¬b ≤ 0x7F := by
        have := UInt8.le_iff_toNat_le.mp hlow
        have := UInt8.le_iff_toNat_le.mp h.1.1
        rw [UInt8.le_iff_toNat_le]
        simp at *
        omega
      rw [if_neg hnot] at hb
      simp only [hb, List.singleton_append, validFrom, Bool.and_eq_true, decide_eq_true_eq]
      exact ⟨h.1, ih (fun r hr => hpending r (List.mem_cons_of_mem _ hr)) h.2⟩

/-- Replacing ASCII octets by ASCII keeps a string well-formed. -/
theorem valid_flatMap {f : UInt8 → Bytes}
    (hf : ∀ b, if b ≤ 0x7F then ∀ c ∈ f b, c ≤ 0x7F else f b = [b]) {s : Bytes}
    (h : valid s = true) : valid (s.flatMap f) = true :=
  validFrom_flatMap hf (by simp) h

/-! ## Code points -/

/-- The UTF-8 form of a code point. Surrogates get the three octets their value spells, so that a
sequence of arbitrary code points keeps a distinct representation; `valid` refuses those. -/
def encode (cp : Nat) : Bytes :=
  if cp < 0x80 then [cp.toUInt8]
  else if cp < 0x800 then [(0xC0 + cp / 0x40).toUInt8, (0x80 + cp % 0x40).toUInt8]
  else if cp < 0x10000 then
    [(0xE0 + cp / 0x1000).toUInt8, (0x80 + cp / 0x40 % 0x40).toUInt8, (0x80 + cp % 0x40).toUInt8]
  else
    [(0xF0 + cp / 0x40000).toUInt8, (0x80 + cp / 0x1000 % 0x40).toUInt8,
      (0x80 + cp / 0x40 % 0x40).toUInt8, (0x80 + cp % 0x40).toUInt8]

/-- The number of code points of a text: every octet that does not continue one begins one. -/
def length (s : Bytes) : Nat :=
  s.countP fun b => !decide (0x80 ≤ b ∧ b ≤ 0xBF)

theorem length_le_size (s : Bytes) : length s ≤ s.length := List.countP_le_length

end Utf8

end EquipmentMonitoring
