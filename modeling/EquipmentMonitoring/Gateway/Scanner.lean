import EquipmentMonitoring.Gateway.Store

/-!
# The Span Scanner (`forwarder.cpp`)

Forwarding copies the raw text of every member instead of re-serialising it. The scanner that finds
the spans walks the stored payload byte by byte; here a position is the text that remains, and a
scan returns the span it walked over with what is left. Loops take fuel; `backendEventJson`
supplies the length of the text, one byte being consumed at least per round.

## Layers

- `skipSpace`, `quotedEnd`, `memberEnd`: as in the source
- `backendEventJson`: the event without its schema version and with its receipt time
- `batchJson`: the request body of a claimed batch
- `Skips`: the texts `memberEnd` walks over; every rendered value is one
-/

namespace EquipmentMonitoring.Forwarder

open EquipmentMonitoring.Json EquipmentMonitoring.Telemetry

/-! ## The Scanner -/

/-- `std::isspace` in the C locale. -/
def isCSpace (b : UInt8) : Bool := b == 0x20 || (decide (0x09 ≤ b) && decide (b ≤ 0x0D))

def skipSpace (source : Bytes) : Bytes := source.dropWhile isCSpace

/-- What is left of a quoted string behind its opening quote, up to and including the closing one,
and the text after it. -/
def quotedRest : Bytes → Option (Bytes × Bytes)
  | [] => none
  | b :: rest =>
    if b = 0x5C then
      match rest with
      | [] => none
      -- an escaped byte does not end the string, a quote included
      | c :: rest => (quotedRest rest).map fun p => (b :: c :: p.1, p.2)
    else if b = 0x22 then some ([b], rest)
    else (quotedRest rest).map fun p => (b :: p.1, p.2)

def quotedEnd (source : Bytes) : Except String (Bytes × Bytes) :=
  match source with
  | [] => .error "stored event has invalid JSON member"
  | b :: rest =>
    if b = 0x22 then
      match quotedRest rest with
      | some (inner, after) => .ok (b :: inner, after)
      | none => .error "stored event has unterminated JSON string"
    else .error "stored event has invalid JSON member"

/-- Put text in front of the span a scan has walked over. -/
def before (text : Bytes) (scan : Except String (Bytes × Bytes)) : Except String (Bytes × Bytes) :=
  scan.map fun p => (text ++ p.1, p.2)

def memberEnd : Nat → Nat → Bytes → Except String (Bytes × Bytes)
  | 0, _, _ => .error "stored event has incomplete JSON member"
  | _ + 1, _, [] => .error "stored event has incomplete JSON member"
  | fuel + 1, depth, symbol :: rest =>
    -- strings are skipped whole: brackets inside them do not count
    if symbol = 0x22 then
      match quotedEnd (symbol :: rest) with
      | .ok (quoted, after) => before quoted (memberEnd fuel depth after)
      | .error what => .error what
    else if symbol = 0x7B ∨ symbol = 0x5B then before [symbol] (memberEnd fuel (depth + 1) rest)
    else if symbol = 0x7D ∨ symbol = 0x5D then
      -- what closes the object around the member
      if depth = 0 then .ok ([], symbol :: rest)
      else before [symbol] (memberEnd fuel (depth - 1) rest)
    else if symbol = 0x2C ∧ depth = 0 then .ok ([], symbol :: rest)
    else before [symbol] (memberEnd fuel depth rest)

/-! ## Copying Members -/

/-- `json::parse(text).get<std::string>()`. -/
def parseKey [Nlohmann.Library] (text : Bytes) : Except String Bytes :=
  match Nlohmann.parse text with
  | some ⟨_, .string l, _⟩ => .ok (Literal.decode l)
  | some _ => .error "type must be string"
  | none => .error "parse error"

def schemaKey : Bytes := ascii "schema_version"

/-- The variables of the copying loop. -/
structure Copied where
  output : Bytes
  hasSchema : Bool
  hasMember : Bool

/-- Account for one member with the span `text`. -/
def Copied.addMember (st : Copied) (key text : Bytes) : Copied :=
  if key = schemaKey then { st with hasSchema := true }
  else
    { st with
      output := (if st.hasMember then st.output ++ [0x2C] else st.output) ++ text
      hasMember := true }

def copyMembers [Nlohmann.Library] : Nat → Copied → Bytes → Except String Copied
  | 0, _, _ => .error "stored event has incomplete JSON object"
  | fuel + 1, st, source =>
    match skipSpace source with
    | [] => .error "stored event has incomplete JSON object"
    | symbol :: rest =>
      if symbol = 0x7D then .ok st
      else do
        let (quoted, source₁) ← quotedEnd (symbol :: rest)
        let key ← parseKey quoted
        match skipSpace source₁ with
        | [] => throw "stored event has invalid JSON separator"
        | separator :: source₂ =>
          if separator ≠ 0x3A then throw "stored event has invalid JSON separator"
          let (span, source₃) ← memberEnd (source₂.length + 1) 0 source₂
          -- the member is copied byte for byte, white space before the colon included
          let st := st.addMember key (quoted ++ source₁.takeWhile isCSpace ++ separator :: span)
          match source₃ with
          | [] => throw "stored event has incomplete JSON object"
          -- the loop ends at a closing brace and steps over anything else
          | close :: source₄ => if close = 0x7D then .ok st else copyMembers fuel st source₄

/-- The event as the backend receives it. -/
def backendEventJson [Nlohmann.Library] (event : Event) : Except String Bytes :=
  match skipSpace event.mqttPayload with
  | [] => .error "stored event is not a JSON object"
  | symbol :: source =>
    if symbol ≠ 0x7B then .error "stored event is not a JSON object"
    else do
      -- the fuel is one more than the bytes that are left
      let st ← copyMembers (source.length + 1) ⟨[0x7B], false, false⟩ source
      if !st.hasSchema || !st.hasMember then
        throw "stored event is missing its schema or content"
      match Nlohmann.dump event.gatewayReceivedAt with
      | none => throw "invalid UTF-8 byte"
      | some text => return st.output ++ ascii ",\"gateway_received_at\":" ++ text ++ [0x7D]

/-- The request body for a claimed batch. -/
def batchJson [Nlohmann.Library] (claimed : List Store.QueuedEvent) : Except String Bytes := do
  let events ← claimed.mapM fun row => backendEventJson row.event
  return ascii "\x7b\"schema_version\":1,\"events\":[" ++ [0x2C].intercalate events ++ ascii "]\x7d"

/-! ## Consumed Text -/

theorem quotedRest_sound {s q r : Bytes} (h : quotedRest s = some (q, r)) :
    s = q ++ r ∧ q ≠ [] := by
  fun_induction quotedRest s generalizing q r with
  | case1 => simp at h
  | case2 => simp at h
  | case3 c rest ih =>
    simp only [Option.map_eq_some_iff, Prod.exists, Prod.mk.injEq] at h
    obtain ⟨q', r', h, rfl, rfl⟩ := h
    simp [(ih h).1]
  | case4 rest =>
    obtain ⟨rfl, rfl⟩ := Prod.mk.inj (Option.some.inj h)
    exact ⟨rfl, by simp⟩
  | case5 b rest hescape hquote ih =>
    simp only [Option.map_eq_some_iff, Prod.exists, Prod.mk.injEq] at h
    obtain ⟨q', r', h, rfl, rfl⟩ := h
    simp [(ih h).1]

theorem quotedEnd_sound {s q r : Bytes} (h : quotedEnd s = .ok (q, r)) : s = q ++ r ∧ q ≠ [] := by
  unfold quotedEnd at h
  split at h
  · simp at h
  · split at h
    · split at h
      · next inner after hrest =>
        obtain ⟨rfl, rfl⟩ := Prod.mk.inj (Except.ok.inj h)
        simp [(quotedRest_sound hrest).1]
      · simp at h
    · simp at h

/-- The fuel does not matter once it exceeds the length of the text. -/
theorem memberEnd_fuel {fuel fuel' depth : Nat} {s : Bytes} (h : s.length < fuel)
    (h' : s.length < fuel') : memberEnd fuel depth s = memberEnd fuel' depth s := by
  induction fuel generalizing fuel' depth s with
  | zero => omega
  | succ fuel ih =>
    obtain ⟨fuel', rfl⟩ : ∃ n, fuel' = n + 1 := ⟨fuel' - 1, by omega⟩
    cases s with
    | nil => rfl
    | cons b rest =>
      simp only [List.length_cons] at h h'
      have hrest (k : Nat) : memberEnd fuel k rest = memberEnd fuel' k rest :=
        ih (by omega) (by omega)
      simp only [memberEnd, hrest]
      cases hquoted : quotedEnd (b :: rest) with
      | error what => rfl
      | ok p =>
        obtain ⟨q, r⟩ := p
        obtain ⟨htext, hne⟩ := quotedEnd_sound hquoted
        have hlen := congrArg List.length htext
        have hpos := List.length_pos_of_ne_nil hne
        simp only [List.length_cons, List.length_append] at hlen
        simp only [ih (show r.length < fuel by omega) (show r.length < fuel' by omega)]

/-! ## Texts the Scanner Walks Over -/

/-- `memberEnd` with fuel for the whole text. -/
def scanMember (depth : Nat) (s : Bytes) : Except String (Bytes × Bytes) :=
  memberEnd (s.length + 1) depth s

theorem memberEnd_eq_scanMember {fuel depth : Nat} {s : Bytes} (h : s.length < fuel) :
    memberEnd fuel depth s = scanMember depth s :=
  memberEnd_fuel h (Nat.lt_succ_self _)

@[simp] theorem before_nil (scan : Except String (Bytes × Bytes)) : before [] scan = scan := by
  cases scan <;> rfl

@[simp] theorem before_before (u v : Bytes) (scan : Except String (Bytes × Bytes)) :
    before u (before v scan) = before (u ++ v) scan := by
  cases scan <;> simp [before, Except.map]

/-- Wherever at least `level` containers are open, the scanner walks over `u` and is as deep after
it as before. -/
def Skips (level : Nat) (u : Bytes) : Prop :=
  ∀ depth, level ≤ depth → ∀ r, scanMember depth (u ++ r) = before u (scanMember depth r)

theorem Skips.nil (level : Nat) : Skips level [] := fun _ _ r => by simp

theorem Skips.append {level : Nat} {u v : Bytes} (hu : Skips level u) (hv : Skips level v) :
    Skips level (u ++ v) := by
  intro depth hdepth r
  rw [List.append_assoc, hu depth hdepth, hv depth hdepth, before_before]

theorem Skips.mono {level level' : Nat} {u : Bytes} (hle : level ≤ level') (hu : Skips level u) :
    Skips level' u :=
  fun depth hdepth => hu depth (Nat.le_trans hle hdepth)

/-- Octets that mean something to the scanner. -/
def isSymbol (b : UInt8) : Bool :=
  b == 0x22 || b == 0x7B || b == 0x5B || b == 0x7D || b == 0x5D || b == 0x2C

theorem scanMember_cons (depth : Nat) (b : UInt8) (r : Bytes) :
    scanMember depth (b :: r) =
      if b = 0x22 then
        match quotedEnd (b :: r) with
        | .ok (quoted, after) => before quoted (scanMember depth after)
        | .error what => .error what
      else if b = 0x7B ∨ b = 0x5B then before [b] (scanMember (depth + 1) r)
      else if b = 0x7D ∨ b = 0x5D then
        if depth = 0 then .ok ([], b :: r) else before [b] (scanMember (depth - 1) r)
      else if b = 0x2C ∧ depth = 0 then .ok ([], b :: r)
      else before [b] (scanMember depth r) := by
  have hfuel (k : Nat) : memberEnd (r.length + 1) k r = scanMember k r := rfl
  rw [scanMember, List.length_cons, memberEnd]
  simp only [hfuel]
  split
  · split
    · next q after hquoted =>
      obtain ⟨htext, hne⟩ := quotedEnd_sound hquoted
      have hlen := congrArg List.length htext
      have hpos := List.length_pos_of_ne_nil hne
      simp only [List.length_cons, List.length_append] at hlen
      -- what follows the string is shorter, so the fuel is enough for it
      rw [memberEnd_eq_scanMember (by omega)]
    · rfl
  · rfl

theorem skips_plain {b : UInt8} (hb : isSymbol b = false) : Skips 0 [b] := by
  intro depth _ r
  simp only [isSymbol, Bool.or_eq_false_iff, beq_eq_false_iff_ne] at hb
  obtain ⟨⟨⟨⟨⟨h₁, h₂⟩, h₃⟩, h₄⟩, h₅⟩, h₆⟩ := hb
  simp [scanMember_cons, h₁, h₂, h₃, h₄, h₅, h₆]

theorem skips_of_all {u : Bytes} (hu : ∀ b ∈ u, isSymbol b = false) : Skips 0 u := by
  induction u with
  | nil => exact Skips.nil 0
  | cons b rest ih =>
    exact (skips_plain (hu b (List.mem_cons_self ..))).append
      (ih fun c hc => hu c (List.mem_cons_of_mem _ hc))

theorem skips_comma : Skips 1 [0x2C] := by
  intro depth hdepth r
  simp [scanMember_cons, Nat.ne_of_gt hdepth]

/-- A bracketed text is walked over when its content is, one level down. -/
theorem skips_brackets {opening closing : UInt8} {u : Bytes}
    (hopen : opening = 0x7B ∨ opening = 0x5B) (hclose : closing = 0x7D ∨ closing = 0x5D)
    (hu : Skips 1 u) : Skips 0 (opening :: (u ++ [closing])) := by
  intro depth _ r
  have hquote : opening ≠ 0x22 := by rcases hopen with rfl | rfl <;> decide
  have hquote' : closing ≠ 0x22 := by rcases hclose with rfl | rfl <;> decide
  have hopen' : ¬(closing = 0x7B ∨ closing = 0x5B) := by rcases hclose with rfl | rfl <;> decide
  rw [List.cons_append, List.append_assoc, scanMember_cons, if_neg hquote, if_pos hopen,
    hu (depth + 1) (by omega), List.singleton_append, scanMember_cons, if_neg hquote',
    if_neg hopen', if_pos hclose, if_neg (by omega), before_before, before_before]
  rfl

/-! ## Rendered Values -/

theorem quotedRest_plain {b : UInt8} (h : b ≠ 0x5C ∧ b ≠ 0x22) (r : Bytes) :
    quotedRest (b :: r) = (quotedRest r).map fun p => (b :: p.1, p.2) := by
  rw [quotedRest.eq_def]
  simp [h.1, h.2]

theorem quotedRest_escape (c : UInt8) (r : Bytes) :
    quotedRest (0x5C :: c :: r) = (quotedRest r).map fun p => (0x5C :: c :: p.1, p.2) := by
  rw [quotedRest.eq_def]
  simp

theorem isHex_ne {b : UInt8} (h : isHex b = true) : b ≠ 0x5C ∧ b ≠ 0x22 := by
  constructor <;> rintro rfl <;> exact absurd h (by decide)

theorem quotedRest_render (l : Literal) (r : Bytes) :
    quotedRest (Literal.raw l ++ 0x22 :: r) = some (Literal.raw l ++ [0x22], r) := by
  induction l with
  | nil => simp [Literal.raw, quotedRest.eq_def]
  | cons c rest ih =>
    simp only [Literal.raw] at ih
    simp only [Literal.raw, List.flatMap_cons, List.append_assoc]
    cases c with
    | plain b h =>
      have hb := isPlain_ne h
      simp [StringChar.render, quotedRest_plain ⟨hb.2, hb.1⟩, ih]
    | escape c h => simp [StringChar.render, quotedRest_escape, ih]
    | unicode w x y z h =>
      simp only [Bool.and_eq_true] at h
      simp [StringChar.render, quotedRest_escape, quotedRest_plain (isHex_ne h.1.1.1),
        quotedRest_plain (isHex_ne h.1.1.2), quotedRest_plain (isHex_ne h.1.2),
        quotedRest_plain (isHex_ne h.2), ih]

theorem quotedEnd_render (l : Literal) (r : Bytes) :
    quotedEnd (Literal.render l ++ r) = .ok (Literal.render l, r) := by
  simp [Literal.render, quotedEnd, quotedRest_render]

theorem skips_literal (l : Literal) : Skips 0 (Literal.render l) := by
  intro depth _ r
  have h := quotedEnd_render l r
  simp only [Literal.render, List.cons_append] at h ⊢
  rw [scanMember_cons, if_pos rfl, h]

theorem skips_space (sp : Space) : Skips 0 sp.text := by
  refine skips_of_all fun b hb => ?_
  have hspace := List.all_eq_true.mp sp.spaces b hb
  simp only [isSpace, Bool.or_eq_true, beq_iff_eq] at hspace
  rcases hspace with ((rfl | rfl) | rfl) | rfl <;> decide

theorem skips_number (n : Number) : Skips 0 n.render := by
  refine skips_of_all fun b hb => ?_
  have hnumber := n.mem_render hb
  simp [isSymbol, numberByte_ne hnumber 0x22 (by decide), numberByte_ne hnumber 0x7B (by decide),
    numberByte_ne hnumber 0x5B (by decide), numberByte_ne hnumber 0x7D (by decide),
    numberByte_ne hnumber 0x5D (by decide), numberByte_ne hnumber 0x2C (by decide)]

theorem skips_member {m : Member Tree} (hm : Skips 0 m.value.render) :
    Skips 0 (renderMember m) := by
  obtain ⟨before, key, afterKey, beforeValue, v, after⟩ := m
  have h := (((((skips_space before).append (skips_literal key)).append (skips_space afterKey)).append
    (skips_plain (b := 0x3A) (by decide))).append (skips_space beforeValue)).append hm
  simpa [renderMember] using h.append (skips_space after)

theorem skips_element {e : Element Tree} (he : Skips 0 e.value.render) :
    Skips 0 (renderElement e) := by
  obtain ⟨before, v, after⟩ := e
  simpa [renderElement] using ((skips_space before).append he).append (skips_space after)

theorem skips_members {ms : List (Member Tree)} (hms : ∀ m ∈ ms, Skips 0 m.value.render) :
    Skips 1 (renderMembers ms) := by
  induction ms with
  | nil => exact Skips.nil 1
  | cons m rest ih =>
    have hm := (skips_member (hms m (List.mem_cons_self ..))).mono (Nat.zero_le 1)
    exact skips_comma.append (hm.append (ih fun x hx => hms x (List.mem_cons_of_mem _ hx)))

theorem skips_elements {es : List (Element Tree)} (hes : ∀ e ∈ es, Skips 0 e.value.render) :
    Skips 1 (renderElements es) := by
  induction es with
  | nil => exact Skips.nil 1
  | cons e rest ih =>
    have he := (skips_element (hes e (List.mem_cons_self ..))).mono (Nat.zero_le 1)
    exact skips_comma.append (he.append (ih fun x hx => hes x (List.mem_cons_of_mem _ hx)))

theorem skips_word {u : Bytes} (hu : (u.all fun b => !isSymbol b) = true) : Skips 0 u := by
  refine skips_of_all fun b hb => ?_
  simpa using List.all_eq_true.mp hu b hb

/-- The scanner walks over every rendered value, whatever strings and brackets it holds. -/
theorem skips_value (t : Tree) : Skips 0 t.render := by
  induction t with
  | null => exact skips_word (by decide)
  | bool b => cases b <;> exact skips_word (by decide)
  | number n => exact skips_number n
  | string l => exact skips_literal l
  | emptyArray inner =>
    exact skips_brackets (.inr rfl) (.inr rfl) ((skips_space inner).mono (Nat.zero_le 1))
  | array first rest ih =>
    rw [List.forall_mem_cons] at ih
    exact skips_brackets (.inr rfl) (.inr rfl)
      (((skips_element ih.1).mono (Nat.zero_le 1)).append (skips_elements ih.2))
  | emptyObject inner =>
    exact skips_brackets (.inl rfl) (.inl rfl) ((skips_space inner).mono (Nat.zero_le 1))
  | object first rest ih =>
    rw [List.forall_mem_cons] at ih
    exact skips_brackets (.inl rfl) (.inl rfl)
      (((skips_member ih.1).mono (Nat.zero_le 1)).append (skips_members ih.2))

end EquipmentMonitoring.Forwarder
