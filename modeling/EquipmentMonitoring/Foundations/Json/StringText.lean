import EquipmentMonitoring.Foundations.Json.Tokens

/-!
# String Tokens that Denote Text

A string token denotes text when its unescaped octets are well-formed UTF-8 and its escaped
surrogates form pairs. Both are visible in the decoded octets: nothing an escape contributes can
complete or repair what stands next to it.

## Key Results

- `validFrom_encode`: an encoded code point starts afresh, and is no surrogate
- `text_of_decode`: a token that decodes to UTF-8 is spelled in UTF-8, with paired surrogates
-/

namespace EquipmentMonitoring

namespace Utf8

/-! ## Lead Octets -/

/-- Only continuation octets are ever owed. -/
def Owes (pending : List (UInt8 × UInt8)) : Prop :=
  ∀ range ∈ pending, 0x80 ≤ range.1 ∧ range.2 ≤ 0xBF

theorem owed_owes {b : UInt8} {pending : List (UInt8 × UInt8)} (h : owed b = some pending) :
    Owes pending := by
  have hb : ((owed b).all fun pending => pending.all fun range =>
      decide (0x80 ≤ range.1 ∧ range.2 ≤ 0xBF)) = true :=
    forall_octet (p := fun b => (owed b).all fun pending => pending.all fun range =>
      decide (0x80 ≤ range.1 ∧ range.2 ≤ 0xBF)) (by decide +kernel) b
  rw [h] at hb
  intro range hrange
  exact of_decide_eq_true (List.all_eq_true.mp hb range hrange)

theorem Owes.tail {range : UInt8 × UInt8} {pending : List (UInt8 × UInt8)}
    (h : Owes (range :: pending)) : Owes pending :=
  fun r hr => h r (List.mem_cons_of_mem _ hr)

/-- The number of continuation octets that the lead octet `b` announces. -/
def announced (b : UInt8) : Nat :=
  if b ≤ 0x7F then 0 else if b ≤ 0xDF then 1 else if b ≤ 0xEF then 2 else 3

theorem owed_length {b : UInt8} {pending : List (UInt8 × UInt8)} (h : owed b = some pending) :
    pending.length = announced b := by
  have hb : ((owed b).all fun pending => pending.length == announced b) = true :=
    forall_octet (p := fun b => (owed b).all fun pending => pending.length == announced b)
      (by decide +kernel) b
  rw [h] at hb
  exact eq_of_beq hb

/-- An octet that continues nothing stands where nothing is owed. -/
theorem validFrom_lead {pending : List (UInt8 × UInt8)} (hpending : Owes pending) {b : UInt8}
    {s : Bytes} (hb : b < 0x80 ∨ 0xBF < b) (h : validFrom pending (b :: s) = true) :
    pending = [] ∧ ∃ next, owed b = some next ∧ validFrom next s = true := by
  cases pending with
  | nil =>
    simp only [validFrom] at h
    split at h
    · next next hnext => exact ⟨rfl, next, hnext, h⟩
    · simp at h
  | cons range rest =>
    obtain ⟨low, high⟩ := range
    simp only [validFrom, Bool.and_eq_true, decide_eq_true_eq] at h
    have hrange := hpending _ (List.mem_cons_self ..)
    -- an owed byte is a continuation byte, and this one is not
    simp only [UInt8.le_iff_toNat_le, UInt8.lt_iff_toNat_lt] at *
    omega

/-- Octets owed are taken, and the rest is valid by itself. -/
theorem valid_of_owed {pending : List (UInt8 × UInt8)} {u s : Bytes}
    (hlength : pending.length = u.length) (h : validFrom pending (u ++ s) = true) :
    valid s = true := by
  induction pending generalizing u with
  | nil =>
    obtain rfl : u = [] := List.length_eq_zero_iff.mp hlength.symm
    exact h
  | cons range rest ih =>
    cases u with
    | nil => simp at hlength
    | cons b u =>
      obtain ⟨low, high⟩ := range
      simp only [List.cons_append, validFrom, Bool.and_eq_true] at h
      exact ih (Nat.succ.inj hlength) h.2

/-- One octet changes what is owed, whatever follows it. -/
theorem validFrom_cons {pending : List (UInt8 × UInt8)} (hpending : Owes pending) {b : UInt8}
    {s : Bytes} (h : validFrom pending (b :: s) = true) :
    ∃ next, Owes next ∧ ∀ t, validFrom pending (b :: t) = validFrom next t := by
  cases pending with
  | nil =>
    simp only [validFrom] at h
    split at h
    · next next hnext => exact ⟨next, owed_owes hnext, fun t => by simp only [validFrom, hnext]⟩
    · simp at h
  | cons range rest =>
    obtain ⟨low, high⟩ := range
    simp only [validFrom, Bool.and_eq_true] at h
    exact ⟨rest, hpending.tail, fun t => by simp only [validFrom, h.1, Bool.true_and]⟩

/-! ## Code Points -/

theorem toNat_toUInt8 {n : Nat} (h : n < 256) : n.toUInt8.toNat = n := by
  rw [Nat.toUInt8, UInt8.toNat_ofNat']
  exact Nat.mod_eq_of_lt h

/-- An encoded code point, as its lead octet and what the lead octet announces. -/
theorem encode_lead {cp : Nat} (hcp : cp < 0x110000) :
    ∃ b rest, encode cp = b :: rest ∧ (b < 0x80 ∨ 0xBF < b) ∧ rest.length = announced b := by
  have hlead {n : Nat} (hn : n < 256) (low : n < 0x80 ∨ 0xBF < n) :
      n.toUInt8 < 0x80 ∨ 0xBF < n.toUInt8 := by
    have h := toNat_toUInt8 hn
    simp only [UInt8.lt_iff_toNat_lt, h]
    exact low
  have hannounced {n : Nat} (hn : n < 256) : announced n.toUInt8 =
      if n ≤ 0x7F then 0 else if n ≤ 0xDF then 1 else if n ≤ 0xEF then 2 else 3 := by
    have h := toNat_toUInt8 hn
    simp only [announced, UInt8.le_iff_toNat_le, h]
    rfl
  -- One case for each length of the encoding, one to four bytes.
  unfold encode
  split
  · refine ⟨_, _, rfl, hlead (by omega) (by omega), ?_⟩
    rw [hannounced (by omega), if_pos (by omega)]
    rfl
  · split
    · refine ⟨_, _, rfl, hlead (by omega) (by omega), ?_⟩
      rw [hannounced (by omega), if_neg (by omega), if_pos (by omega)]
      rfl
    · split
      · refine ⟨_, _, rfl, hlead (by omega) (by omega), ?_⟩
        rw [hannounced (by omega), if_neg (by omega), if_neg (by omega), if_pos (by omega)]
        rfl
      · refine ⟨_, _, rfl, hlead (by omega) (by omega), ?_⟩
        rw [hannounced (by omega), if_neg (by omega), if_neg (by omega), if_neg (by omega)]
        rfl

/-- An encoded code point starts afresh and leaves nothing owed. -/
theorem validFrom_encode {pending : List (UInt8 × UInt8)} (hpending : Owes pending) {cp : Nat}
    (hcp : cp < 0x110000) {s : Bytes} (h : validFrom pending (encode cp ++ s) = true) :
    pending = [] ∧ valid s = true := by
  obtain ⟨b, rest, hencode, hlead, hlength⟩ := encode_lead hcp
  rw [hencode, List.cons_append] at h
  obtain ⟨hnil, next, hnext, hrest⟩ := validFrom_lead hpending hlead h
  exact ⟨hnil, valid_of_owed ((owed_length hnext).trans hlength.symm) hrest⟩

/-- No surrogate is encoded in well-formed UTF-8. -/
theorem not_validFrom_surrogate {pending : List (UInt8 × UInt8)} (hpending : Owes pending)
    {cp : Nat} (hlow : 0xD800 ≤ cp) (hhigh : cp ≤ 0xDFFF) (s : Bytes) :
    validFrom pending (encode cp ++ s) = false := by
  have hencode : encode cp = [0xED, (0x80 + cp / 0x40 % 0x40).toUInt8, (0x80 + cp % 0x40).toUInt8] := by
    have hdiv : 0xE0 + cp / 0x1000 = 0xED := by omega
    rw [encode, if_neg (by omega), if_neg (by omega), if_pos (by omega), hdiv]
    rfl
  rw [hencode, List.cons_append, ← Bool.not_eq_true]
  intro h
  obtain ⟨-, next, hnext, hrest⟩ := validFrom_lead hpending (.inr (by decide)) h
  obtain rfl : [(0x80, 0x9F), (0x80, 0xBF)] = next := Option.some.inj hnext
  -- the second octet lies above what 0xED owes
  have hsecond : (0x80 + cp / 0x40 % 0x40).toUInt8.toNat = 0x80 + cp / 0x40 % 0x40 :=
    toNat_toUInt8 (by omega)
  simp only [List.cons_append, validFrom, Bool.and_eq_true, decide_eq_true_eq,
    UInt8.le_iff_toNat_le, hsecond] at hrest
  have hle : 0x80 + cp / 0x40 % 0x40 ≤ 0x9F := hrest.1.2
  omega

end Utf8

namespace Json

/-! ## Literals -/

open Utf8

theorem hexValue_lt {b : UInt8} : (hexValue b).getD 0 < 16 :=
  of_decide_eq_true (forall_octet (p := fun b => decide ((hexValue b).getD 0 < 16))
    (by decide +kernel) b)

theorem codeUnit_lt (a b c d : UInt8) : codeUnit a b c d < 0x10000 := by
  have ha := hexValue_lt (b := a)
  have hb := hexValue_lt (b := b)
  have hc := hexValue_lt (b := c)
  have hd := hexValue_lt (b := d)
  unfold codeUnit
  omega

theorem simpleEscape_ascii {c : UInt8} (h : (simpleEscape c).isSome = true) :
    c ≤ 0x7F ∧ (simpleEscape c).getD c < 0x80 := by
  have hc : decide ((simpleEscape c).isSome = true → c ≤ 0x7F ∧ (simpleEscape c).getD c < 0x80) = true :=
    forall_octet (p := fun c => decide ((simpleEscape c).isSome = true →
      c ≤ 0x7F ∧ (simpleEscape c).getD c < 0x80)) (by decide +kernel) c
  exact of_decide_eq_true hc h

theorem isHex_ascii {b : UInt8} (h : isHex b = true) : b ≤ 0x7F := by
  have hb : decide (isHex b = true → b ≤ 0x7F) = true :=
    forall_octet (p := fun b => decide (isHex b = true → b ≤ 0x7F)) (by decide +kernel) b
  exact of_decide_eq_true hb h

/-- An escape is spelled in ASCII. -/
theorem valid_escape {c : StringChar} (hc : ∀ b h, c ≠ .plain b h) {s : Bytes}
    (hs : valid s = true) : valid (c.render ++ s) = true := by
  refine valid_append (valid_of_ascii ?_) hs
  cases c with
  | plain b h => exact absurd rfl (hc b h)
  | escape c h => simpa [StringChar.render] using (simpleEscape_ascii h).1
  | unicode a b c d h =>
    simp only [Bool.and_eq_true] at h
    simp [StringChar.render, isHex_ascii h.1.1.1, isHex_ascii h.1.1.2, isHex_ascii h.1.2,
      isHex_ascii h.2]

theorem pairValue_lt {high low : Nat} (hhigh : isHighSurrogate high = true)
    (hlow : isLowSurrogate low = true) : pairValue high low < 0x110000 := by
  simp only [isHighSurrogate, isLowSurrogate, Bool.and_eq_true, decide_eq_true_eq] at hhigh hlow
  unfold pairValue
  omega

theorem not_validFrom_held {pending : List (UInt8 × UInt8)} (hpending : Owes pending) {high : Nat}
    (hhigh : isHighSurrogate high = true) (s : Bytes) :
    validFrom pending (encode high ++ s) = false := by
  simp only [isHighSurrogate, Bool.and_eq_true, decide_eq_true_eq] at hhigh
  exact not_validFrom_surrogate hpending hhigh.1 (by omega) s

/-- The induction behind `text_of_decode`; a high surrogate held back must find its low half. -/
theorem text_of_decodeFrom (held : Option Nat) (l : Literal) {pending : List (UInt8 × UInt8)}
    (hheld : ∀ high ∈ held, isHighSurrogate high = true) (hpending : Owes pending)
    (h : validFrom pending (Literal.decodeFrom held l) = true) :
    validFrom pending (Literal.raw l) = true ∧ (held.isSome = true → pending = []) ∧
      Literal.pairedFrom held.isSome l = true := by
  have hnil : Owes [] := by simp [Owes]
  -- a surrogate held back is lost on anything but its low half
  have hlost {high : Nat} (hhigh : isHighSurrogate high = true) {s : Bytes}
      (hs : validFrom pending (encode high ++ s) = true) : False := by
    rw [not_validFrom_held hpending hhigh] at hs
    exact Bool.false_ne_true hs
  fun_induction Literal.decodeFrom held l generalizing pending with
  | case1 held =>
    cases held with
    | none => exact ⟨h, by simp, rfl⟩
    | some high => exact (hlost (hheld high rfl) (s := []) (by simpa [heldBack] using h)).elim
  | case2 held b hplain rest ih =>
    cases held with
    | none =>
      obtain ⟨next, hnext, hstep⟩ := validFrom_cons hpending h
      have hrest := ih (by simp) hnext ((hstep _).symm.trans h) (fun hhigh s hs => by
        rw [not_validFrom_held hnext hhigh] at hs
        exact Bool.false_ne_true hs)
      exact ⟨(hstep _).trans hrest.1, by simp, hrest.2.2⟩
    | some high => exact (hlost (hheld high rfl) h).elim
  | case3 held c hescape rest ih =>
    cases held with
    | none =>
      have hascii := simpleEscape_ascii hescape
      obtain ⟨rfl, next, hnext, hrest⟩ := validFrom_lead hpending (.inl hascii.2) h
      obtain rfl : next = [] := by
        have hle : (simpleEscape c).getD c ≤ 0x7F := by
          have := hascii.2
          simp only [UInt8.lt_iff_toNat_lt, UInt8.le_iff_toNat_le] at this ⊢
          exact Nat.le_of_lt_succ this
        have hlength := owed_length hnext
        rw [announced, if_pos hle] at hlength
        exact List.length_eq_zero_iff.mp hlength
      obtain ⟨hraw, -, hpaired⟩ := ih (by simp) hnil hrest hlost
      exact ⟨valid_escape (by simp) hraw, by simp, hpaired⟩
    | some high => exact (hlost (hheld high rfl) h).elim
  | case4 high a b c d hhex rest hlow ih =>
    have hhigh := hheld high rfl
    obtain ⟨rfl, hrest⟩ := validFrom_encode hpending (pairValue_lt hhigh hlow) h
    obtain ⟨hraw, -, hpaired⟩ := ih (by simp) hnil hrest hlost
    exact ⟨valid_escape (by simp) hraw, fun _ => rfl, by
      simpa [Literal.pairedFrom, hlow] using hpaired⟩
  | case5 high a b c d hhex rest hlow hhigh' ih => exact (hlost (hheld high rfl) h).elim
  | case6 high a b c d hhex rest hlow hhigh' ih =>
    rw [List.append_assoc] at h
    exact (hlost (hheld high rfl) h).elim
  | case7 a b c d hhex rest hhigh ih =>
    obtain ⟨hraw, hnone, hpaired⟩ := ih (by simpa using hhigh) hpending h hlost
    obtain rfl := hnone rfl
    exact ⟨valid_escape (by simp) hraw, by simp, by simpa [Literal.pairedFrom, hhigh] using hpaired⟩
  | case8 a b c d hhex rest hhigh ih =>
    obtain ⟨rfl, hrest⟩ := validFrom_encode hpending
      (Nat.lt_trans (codeUnit_lt a b c d) (by decide)) h
    obtain ⟨hraw, -, hpaired⟩ := ih (by simp) hnil hrest hlost
    have hlow : isLowSurrogate (codeUnit a b c d) = false := by
      by_contra hlow
      simp only [Bool.not_eq_false, isLowSurrogate, Bool.and_eq_true, decide_eq_true_eq] at hlow
      rw [not_validFrom_surrogate hpending (by omega) hlow.2] at h
      exact Bool.false_ne_true h
    exact ⟨valid_escape (by simp) hraw, by simp, by
      simpa [Literal.pairedFrom, hhigh, hlow] using hpaired⟩

/-- A token that decodes to UTF-8 is spelled in UTF-8, with paired surrogates. -/
theorem text_of_decode {l : Literal} (h : valid (Literal.decode l) = true) :
    valid (Literal.raw l) = true ∧ Literal.wellPaired l = true := by
  obtain ⟨hraw, -, hpaired⟩ := text_of_decodeFrom none l (by simp) (by simp [Owes]) h
  exact ⟨hraw, hpaired⟩

end Json

end EquipmentMonitoring
