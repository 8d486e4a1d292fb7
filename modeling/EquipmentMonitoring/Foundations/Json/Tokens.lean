import EquipmentMonitoring.Foundations.Json.Reader

/-!
# Token Scanners Invert Rendering

For every token scanner, two lemmas: what it consumed is the rendering of the token it returns
(`_sound`), and it returns exactly the token that was rendered, provided the text that follows
cannot extend it (`_render`).
-/

namespace EquipmentMonitoring.Json

/-! ## Text that Follows a Token -/

/-- The text does not begin with an octet that satisfies `p`. -/
def NotStarting (p : UInt8 → Bool) (s : Bytes) : Prop := ∀ b ∈ s.head?, p b = false

@[simp] theorem notStarting_nil (p : UInt8 → Bool) : NotStarting p [] := by
  simp [NotStarting]

@[simp] theorem notStarting_cons (p : UInt8 → Bool) (b : UInt8) (s : Bytes) :
    NotStarting p (b :: s) ↔ p b = false := by
  simp [NotStarting]

theorem takeWhile_append_of_all {p : UInt8 → Bool} {s r : Bytes} (hs : s.all p = true)
    (hr : NotStarting p r) : (s ++ r).takeWhile p = s ∧ (s ++ r).dropWhile p = r := by
  induction s with
  | nil =>
    cases r with
    | nil => simp
    | cons b rest => simp [notStarting_cons] at hr; simp [hr]
  | cons b rest ih =>
    simp only [List.all_cons, Bool.and_eq_true] at hs
    have := ih hs.2
    simp [hs.1, this]

/-- What may come after a value: whitespace, a comma, a closing bracket or the end. -/
def isDelimiter (b : UInt8) : Bool := isSpace b || b == 0x2C || b == 0x5D || b == 0x7D

def Delimited (s : Bytes) : Prop := ∀ b ∈ s.head?, isDelimiter b = true

@[simp] theorem delimited_nil : Delimited [] := by simp [Delimited]

@[simp] theorem delimited_cons (b : UInt8) (s : Bytes) :
    Delimited (b :: s) ↔ isDelimiter b = true := by
  simp [Delimited]

/-- Octets that could carry a number on. -/
def extendsNumber (b : UInt8) : Bool := isDigit b || b == 0x2E || b == 0x65 || b == 0x45

theorem not_extendsNumber_of_delimiter {b : UInt8} (h : isDelimiter b = true) :
    extendsNumber b = false := by
  simp only [isDelimiter, isSpace, Bool.or_eq_true, beq_iff_eq] at h
  rcases h with (((((rfl | rfl) | rfl) | rfl) | rfl) | rfl) | rfl <;> decide

theorem Delimited.notStarting {s : Bytes} (h : Delimited s) : NotStarting extendsNumber s :=
  fun b hb => not_extendsNumber_of_delimiter (h b hb)

theorem NotStarting.mono {p q : UInt8 → Bool} {s : Bytes} (h : NotStarting p s)
    (hqp : ∀ b, q b = true → p b = true) : NotStarting q s := by
  intro b hb
  by_contra hq
  have := h b hb
  simp [hqp b (by simpa using hq)] at this

/-! ## Whitespace -/

theorem Space.ext_text {a b : Space} (h : a.text = b.text) : a = b := by
  cases a; cases b; simp_all

theorem takeSpace_sound (s : Bytes) : (takeSpace s).1.text ++ (takeSpace s).2 = s := by
  simp [takeSpace, List.takeWhile_append_dropWhile]

theorem takeSpace_render (sp : Space) {r : Bytes} (hr : NotStarting isSpace r) :
    takeSpace (sp.text ++ r) = (sp, r) := by
  have h := takeWhile_append_of_all sp.spaces hr
  exact Prod.ext (Space.ext_text h.1) h.2

theorem delimited_space_append (sp : Space) {r : Bytes} (hr : Delimited r) :
    Delimited (sp.text ++ r) := by
  have hall := sp.spaces
  cases hsp : sp.text with
  | nil => simpa using hr
  | cons b rest =>
    rw [hsp] at hall
    simp only [List.all_cons, Bool.and_eq_true] at hall
    simp [isDelimiter, hall.1]

/-! ## Numbers -/

theorem Digits.ext_text {a b : Digits} (h : a.text = b.text) : a = b := by
  cases a; cases b; simp_all

theorem scanDigits_sound {s : Bytes} {ds : Digits} {r : Bytes}
    (h : scanDigits s = some (ds, r)) : s = ds.text ++ r := by
  unfold scanDigits at h
  split at h
  · simp only [Option.some.injEq, Prod.mk.injEq] at h
    rw [← h.1, ← h.2, List.takeWhile_append_dropWhile]
  · simp at h

theorem scanDigits_render (ds : Digits) {r : Bytes} (hr : NotStarting isDigit r) :
    scanDigits (ds.text ++ r) = some (ds, r) := by
  have h := takeWhile_append_of_all ds.digits hr
  have hne : (ds.text ++ r).takeWhile isDigit ≠ [] := by rw [h.1]; exact ds.nonempty
  rw [scanDigits, dif_pos hne, h.2]
  exact congrArg (fun x => some (x, r)) (Digits.ext_text h.1)

theorem scanInt_sound {s : Bytes}
    {ds : { ds : Digits // ds.text.head? = some 0x30 → ds.text = [0x30] }} {r : Bytes}
    (h : scanInt s = some (ds, r)) : s = ds.1.text ++ r := by
  unfold scanInt at h
  split at h
  · simp at h
  · split at h
    · next hb =>
      simp only [Option.some.injEq, Prod.mk.injEq] at h
      obtain ⟨rfl, rfl⟩ := h
      simp [hb]
    · split at h
      · next hd =>
        split at h
        · simp only [Option.some.injEq, Prod.mk.injEq] at h
          obtain ⟨rfl, rfl⟩ := h
          exact scanDigits_sound hd
        · simp at h
      · simp at h

theorem scanInt_render (ds : Digits) (hcan : ds.text.head? = some 0x30 → ds.text = [0x30])
    {r : Bytes} (hr : NotStarting isDigit r) :
    scanInt (ds.text ++ r) = some (⟨ds, hcan⟩, r) := by
  obtain ⟨b, rest, hds⟩ := List.exists_cons_of_ne_nil ds.nonempty
  by_cases hb : b = 0x30
  · -- a leading zero stands alone
    have htext : ds.text = [0x30] := hcan (by simp [hds, hb])
    rw [htext]
    simp only [scanInt, List.cons_append, List.nil_append, if_true, Option.some.injEq,
      Prod.mk.injEq, and_true]
    exact Subtype.ext (Digits.ext_text htext.symm)
  · have hscan := scanDigits_render ds hr
    rw [hds, List.cons_append] at hscan ⊢
    rw [scanInt]
    simp only [hb, hscan, if_false]
    exact dif_pos hcan

theorem scanFrac_sound {s : Bytes} {f : Option Digits} {r : Bytes}
    (h : scanFrac s = some (f, r)) :
    s = fracText f ++ r := by
  unfold scanFrac at h
  split at h
  · simp only [Option.some.injEq, Prod.mk.injEq] at h
    obtain ⟨rfl, rfl⟩ := h
    rfl
  · split at h
    · next hb =>
      simp only [Option.map_eq_some_iff, Prod.mk.injEq, Prod.exists] at h
      obtain ⟨ds, r', hd, rfl, rfl⟩ := h
      simp [hb, scanDigits_sound hd, fracText]
    · simp only [Option.some.injEq, Prod.mk.injEq] at h
      obtain ⟨rfl, rfl⟩ := h
      rfl

theorem scanSign_sound (s : Bytes) :
    (scanSign s).1.1.toList ++ (scanSign s).2 = s := by
  unfold scanSign
  split
  · rfl
  · split <;> simp

theorem scanExp_sound {s : Bytes} {e : Option Exponent} {r : Bytes}
    (h : scanExp s = some (e, r)) :
    s = expText e ++ r := by
  unfold scanExp at h
  split at h
  · simp only [Option.some.injEq, Prod.mk.injEq] at h
    obtain ⟨rfl, rfl⟩ := h
    rfl
  · next b rest =>
    split at h
    · simp only [Option.map_eq_some_iff, Prod.mk.injEq, Prod.exists] at h
      obtain ⟨ds, r', hd, rfl, rfl⟩ := h
      have hsign : rest = (scanSign rest).1.1.toList ++ (ds.text ++ r') := by
        rw [← scanDigits_sound hd, scanSign_sound]
      simp only [expText, Exponent.render, List.cons_append, List.append_assoc]
      exact congrArg (List.cons b) hsign
    · simp only [Option.some.injEq, Prod.mk.injEq] at h
      obtain ⟨rfl, rfl⟩ := h
      rfl

theorem scanExp_render (e : Option Exponent) {r : Bytes} (hr : NotStarting extendsNumber r) :
    scanExp (expText e ++ r) = some (e, r) := by
  have hdigit : NotStarting isDigit r := hr.mono fun b hb => by simp [extendsNumber, hb]
  cases e with
  | none =>
    cases r with
    | nil => rfl
    | cons b rest =>
      -- Without an exponent the next byte must not look like one.
      have hb : ¬(b = 0x65 ∨ b = 0x45) := by
        have := (notStarting_cons ..).mp hr
        rintro (rfl | rfl) <;> simp [extendsNumber] at this
      simp [expText, scanExp, hb]
  | some e =>
    obtain ⟨marker, hmarker, sign, hsign, ds⟩ := e
    -- A digit is no sign, so the scan of the sign stops where the text has none.
    have hs : scanSign (sign.toList ++ (ds.text ++ r)) = (⟨sign, hsign⟩, ds.text ++ r) := by
      cases sign with
      | some b => simp [scanSign, hsign b rfl]
      | none =>
        obtain ⟨b, rest, hds⟩ := List.exists_cons_of_ne_nil ds.nonempty
        have hb : isDigit b = true := by have := ds.digits; simp [hds] at this; exact this.1
        have : ¬(b = 0x2B ∨ b = 0x2D) := by rintro (rfl | rfl) <;> simp [isDigit] at hb
        simp [scanSign, hds, this]
    simp only [expText, Exponent.render, List.cons_append, List.append_assoc, scanExp, hmarker,
      dif_pos, hs, scanDigits_render ds hdigit, Option.map_some]

theorem scanFrac_render (f : Option Digits) {r : Bytes} (hr : NotStarting isDigit r)
    (hdot : f = none → NotStarting (· == 0x2E) r) :
    scanFrac (fracText f ++ r) = some (f, r) := by
  cases f with
  | some ds => simp [fracText, scanFrac, scanDigits_render ds hr]
  | none =>
    cases r with
    | nil => rfl
    | cons b rest =>
      have hb : b ≠ 0x2E := by simpa using hdot rfl
      simp [fracText, scanFrac, hb]

theorem scanUnsigned_sound {neg : Bool} {s : Bytes} {n : Number} {r : Bytes}
    (h : scanUnsigned neg s = some (n, r)) :
    s = n.int.text ++ n.renderTail ++ r ∧ n.negative = neg := by
  simp only [scanUnsigned, Option.bind_eq_bind, Option.pure_def, Option.bind_eq_some_iff,
    Option.some.injEq, Prod.mk.injEq, Prod.exists] at h
  obtain ⟨int, s₁, hint, frac, s₂, hfrac, exp, s₃, hexp, rfl, rfl⟩ := h
  refine ⟨?_, rfl⟩
  rw [scanInt_sound hint, scanFrac_sound hfrac, scanExp_sound hexp]
  simp [Number.renderTail]

theorem notStarting_exp (p : UInt8 → Bool) (hp : p 0x65 = false) (hp' : p 0x45 = false)
    (e : Option Exponent) {r : Bytes} (hr : NotStarting p r) :
    NotStarting p (expText e ++ r) := by
  cases e with
  | none => exact hr
  | some e =>
    rcases e.marker_valid with h | h <;> simp [expText, Exponent.render, h, hp, hp']

theorem scanUnsigned_render (n : Number) {r : Bytes} (hr : NotStarting extendsNumber r) :
    scanUnsigned n.negative (n.int.text ++ n.renderTail ++ r) = some (n, r) := by
  obtain ⟨neg, int, hcan, frac, exp⟩ := n
  have hdigit : NotStarting isDigit r := hr.mono fun b hb => by simp [extendsNumber, hb]
  have hdot : NotStarting (· == 0x2E) r := hr.mono fun b hb => by
    simp only [beq_iff_eq] at hb; simp [extendsNumber, hb]
  have hexpDigit := notStarting_exp isDigit (by decide) (by decide) exp hdigit
  have hexpDot := notStarting_exp (· == 0x2E) (by decide) (by decide) exp hdot
  -- What follows each part does not go on with its digits.
  have hfracDigit : NotStarting isDigit (fracText frac ++ (expText exp ++ r)) := by
    cases frac with
    | none => exact hexpDigit
    | some ds => simp [fracText, isDigit]
  simp only [Number.renderTail, List.append_assoc, scanUnsigned, Option.bind_eq_bind,
    Option.pure_def, scanInt_render int hcan hfracDigit, Option.bind_some,
    scanFrac_render frac hexpDigit fun _ => hexpDot, scanExp_render exp hr]

theorem scanNumber_sound {s : Bytes} {n : Number} {r : Bytes} (h : scanNumber s = some (n, r)) :
    s = n.render ++ r := by
  unfold scanNumber at h
  split at h
  · simp at h
  · split at h
    · next hb =>
      obtain ⟨hs, hneg⟩ := scanUnsigned_sound h
      simp [Number.render, hneg, hb, hs]
    · obtain ⟨hs, hneg⟩ := scanUnsigned_sound h
      simp [Number.render, hneg, hs]

theorem Number.render_head (n : Number) : ∃ b rest, n.render = b :: rest :=
  List.exists_cons_of_ne_nil (by simp [Number.render, n.int.nonempty])

/-- The octets a number is spelled with. -/
def isNumberByte (b : UInt8) : Bool :=
  isDigit b || b == 0x2D || b == 0x2B || b == 0x2E || b == 0x65 || b == 0x45

theorem numberByte_ne {b : UInt8} (h : isNumberByte b = true) (c : UInt8)
    (hc : isNumberByte c = false) : b ≠ c := by
  rintro rfl
  simp [hc] at h

theorem Digits.mem_text (ds : Digits) {b : UInt8} (hb : b ∈ ds.text) : isNumberByte b = true := by
  simp [isNumberByte, List.all_eq_true.mp ds.digits b hb]

theorem mem_expText {e : Option Exponent} {b : UInt8} (hb : b ∈ expText e) :
    isNumberByte b = true := by
  cases e with
  | none => simp [expText] at hb
  | some e =>
    simp only [expText, Exponent.render, List.mem_cons, List.mem_append, Option.mem_toList] at hb
    rcases hb with rfl | hsign | hdigits
    · rcases e.marker_valid with h | h <;> rw [h] <;> decide
    · rcases e.sign_valid b hsign with rfl | rfl <;> decide
    · exact e.digits.mem_text hdigits

theorem Number.mem_render (n : Number) {b : UInt8} (hb : b ∈ n.render) :
    isNumberByte b = true := by
  simp only [Number.render, Number.renderTail, List.mem_append] at hb
  rcases hb with (hsign | hint) | hfrac | hexp
  · split at hsign
    · obtain rfl := List.mem_singleton.mp hsign
      decide
    · simp at hsign
  · exact n.int.mem_text hint
  · cases hf : n.frac with
    | none => simp [hf, fracText] at hfrac
    | some ds =>
      simp only [hf, fracText, List.mem_cons] at hfrac
      rcases hfrac with rfl | hdigits
      · decide
      · exact ds.mem_text hdigits
  · exact mem_expText hexp

theorem scanNumber_render (n : Number) {r : Bytes} (hr : NotStarting extendsNumber r) :
    scanNumber (n.render ++ r) = some (n, r) := by
  have hscan := scanUnsigned_render n hr
  cases hneg : n.negative with
  | true =>
    simp only [hneg] at hscan
    simp [Number.render, hneg, scanNumber] at hscan ⊢
    exact hscan
  | false =>
    obtain ⟨b, rest, hds⟩ := List.exists_cons_of_ne_nil n.int.nonempty
    have hb : isDigit b = true := by have := n.int.digits; simp [hds] at this; exact this.1
    -- Without a sign the text starts with a digit, which is no minus.
    have hb' : b ≠ 0x2D := by rintro rfl; simp [isDigit] at hb
    simp only [hneg, hds, List.cons_append] at hscan
    simp [Number.render, hneg, hds, scanNumber, hb']
    simpa using hscan

/-! ## Strings -/

theorem scanString_sound : ∀ {s : Bytes} {l : Literal} {r : Bytes},
    scanString s = some (l, r) → s = Literal.raw l ++ 0x22 :: r := by
  intro s
  fun_induction scanString s with
  | case1 => intro l r h; simp at h
  | case2 => intro l r h; simp_all [Literal.raw]
  | case3 => intro l r h; simp at h
  | case4 w x y z rest hhex _ ih =>
    intro l r h
    simp only [Option.map_eq_some_iff, Prod.mk.injEq, Prod.exists] at h
    obtain ⟨l', r', hl, rfl, rfl⟩ := h
    simp_all [Literal.raw, StringChar.render]
  | case5 => intro l r h; simp at h
  | case6 => intro l r h; simp at h
  | case7 c rest _ hc _ ih =>
    intro l r h
    simp only [Option.map_eq_some_iff, Prod.mk.injEq, Prod.exists] at h
    obtain ⟨l', r', hl, rfl, rfl⟩ := h
    simp_all [Literal.raw, StringChar.render]
  | case8 => intro l r h; simp at h
  | case9 b rest hq he hp ih =>
    intro l r h
    simp only [Option.map_eq_some_iff, Prod.mk.injEq, Prod.exists] at h
    obtain ⟨l', r', hl, rfl, rfl⟩ := h
    simp_all [Literal.raw, StringChar.render]
  | case10 => intro l r h; simp at h

theorem isPlain_ne {b : UInt8} (h : isPlain b = true) : b ≠ 0x22 ∧ b ≠ 0x5C := by
  simp only [isPlain, Bool.and_eq_true, bne_iff_ne, decide_eq_true_eq] at h
  exact ⟨h.1.2, h.2⟩

theorem scanString_render (l : Literal) (r : Bytes) :
    scanString (Literal.raw l ++ 0x22 :: r) = some (l, r) := by
  induction l with
  | nil => rw [scanString.eq_def]; simp [Literal.raw]
  | cons c rest ih =>
    simp only [Literal.raw] at ih
    simp only [Literal.raw, List.flatMap_cons, List.append_assoc]
    rw [scanString.eq_def]
    cases c with
    | plain b h =>
      have hb := isPlain_ne h
      simp [StringChar.render, hb.1, hb.2, h, ih]
    | escape c h =>
      -- the letter u would start a Unicode escape instead
      have hc : c ≠ 0x75 := by rintro rfl; simp [simpleEscape] at h
      simp [StringChar.render, hc, h, ih]
    | unicode w x y z h =>
      simp only [StringChar.render, List.cons_append, List.nil_append, ih, h]
      simp

/-! ## Punctuation and Words -/

theorem expectByte_eq_some {b : UInt8} {s r : Bytes} :
    expectByte b s = some r ↔ s = b :: r := by
  cases s with
  | nil => simp [expectByte]
  | cons c rest => simp only [expectByte]; split <;> simp_all

theorem expectWord_eq_some {w s r : Bytes} : expectWord w s = some r ↔ s = w ++ r := by
  induction w generalizing s with
  | nil => simp [expectWord, eq_comm]
  | cons b word ih =>
    simp only [expectWord, Option.bind_eq_some_iff, expectByte_eq_some, ih]
    constructor
    · rintro ⟨t, rfl, rfl⟩; simp
    · rintro rfl; exact ⟨_, rfl, rfl⟩

/-- The octet after a run of whitespace. -/
theorem expectByte_takeSpace {b : UInt8} {s r : Bytes}
    (h : expectByte b (takeSpace s).2 = some r) : s = (takeSpace s).1.text ++ b :: r := by
  rw [← expectByte_eq_some.mp h, takeSpace_sound]

theorem commaOr_eq_some {close : UInt8} {s r : Bytes} {more : Bool}
    (h : commaOr close s = some (more, r)) :
    s = (if more then 0x2C else close) :: r := by
  unfold commaOr at h
  split at h
  · simp at h
  · split at h
    · simp_all
    · split at h <;> simp_all

theorem commaOr_takeSpace {close : UInt8} {s r : Bytes} {more : Bool}
    (h : commaOr close (takeSpace s).2 = some (more, r)) :
    s = (takeSpace s).1.text ++ (if more then 0x2C else close) :: r := by
  rw [← commaOr_eq_some h, takeSpace_sound]

end EquipmentMonitoring.Json
