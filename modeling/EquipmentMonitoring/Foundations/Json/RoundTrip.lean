import EquipmentMonitoring.Foundations.Json.Tokens

/-!
# The Reader Inverts Rendering

`parse` and `renderElement` are inverse to each other: a text is parsed to a tree exactly when it
is the rendering of that tree and the dialect takes the tree's tokens. On the way the reader
reports exactly `Tree.events`.

## Key Results

- `read_sound`: what was read is the rendering of the result (induction on the fuel)
- `read_render`: a rendered tree is read back, with twice its length as fuel
- `parse_eq_some_iff`: the two directions for whole texts
- `Tree.valid_render`: UTF-8 strings make a UTF-8 text
-/

namespace EquipmentMonitoring.Json

/-! ## Reports -/

namespace Sax

variable {α β : Type}

theorem bind_eq_done_iff {x : Sax α} {f : α → Sax β} {reports : List ParseEvent} {b : β} :
    (x >>= f) = done reports b ↔
      ∃ before a after, x = done before a ∧ f a = done after b ∧ reports = before ++ after := by
  obtain ⟨before, result⟩ := x
  cases result with
  | none => simp [bind, andThen, done]
  | some a =>
    constructor
    · intro h
      simp only [bind, andThen, done, mk.injEq] at h
      exact ⟨before, a, (f a).reports, rfl, mk.injEq .. ▸ ⟨rfl, h.2⟩, h.1.symm⟩
    · rintro ⟨before', a', after, hx, hf, rfl⟩
      simp only [done, mk.injEq, Option.some.injEq] at hx
      obtain ⟨rfl, rfl⟩ := hx
      simp [bind, andThen, done, hf]

theorem bind_done {x : Sax α} {f : α → Sax β} {before after : List ParseEvent} {a : α} {b : β}
    (hx : x = done before a) (hf : f a = done after b) :
    (x >>= f) = done (before ++ after) b :=
  bind_eq_done_iff.mpr ⟨before, a, after, hx, hf, rfl⟩

/-- Earlier reports put before those of a reader. -/
def after (reports : List ParseEvent) (x : Sax α) : Sax α := ⟨reports ++ x.reports, x.result⟩

@[simp] theorem done_bind (reports : List ParseEvent) (a : α) (f : α → Sax β) :
    (done reports a >>= f) = (f a).after reports := rfl

@[simp] theorem done_after (before reports : List ParseEvent) (a : α) :
    (done reports a).after before = done (before ++ reports) a := rfl

@[simp] theorem ofOption_some (a : α) : ofOption (some a) = done [] a := rfl

@[simp] theorem ok_eq_done_iff {a b : α} {reports : List ParseEvent} :
    ok a = done reports b ↔ reports = [] ∧ a = b := by
  simp [ok, done, eq_comm]

@[simp] theorem fail_ne_done {b : α} {reports : List ParseEvent} :
    fail = done reports b ↔ False := by
  simp [fail, done]

@[simp] theorem emit_eq_done_iff {depth : Nat} {kind : EventKind} {u : Unit}
    {reports : List ParseEvent} :
    emit depth kind = done reports u ↔ reports = [⟨depth, kind⟩] := by
  simp [emit, done, eq_comm]

@[simp] theorem ofOption_eq_done_iff {o : Option α} {a : α} {reports : List ParseEvent} :
    ofOption o = done reports a ↔ reports = [] ∧ o = some a := by
  cases o <;> simp [ofOption]

end Sax

/-! ## Soundness -/

variable {d : Dialect}

theorem scanLiteral_eq_some_iff {s r : Bytes} {l : Literal} :
    scanLiteral d s = some (l, r) ↔ s = Literal.raw l ++ 0x22 :: r ∧ d.string l = true := by
  simp only [scanLiteral, Option.filter_eq_some_iff]
  constructor
  · rintro ⟨hs, hd⟩
    exact ⟨scanString_sound hs, hd⟩
  · rintro ⟨rfl, hd⟩
    exact ⟨scanString_render l r, hd⟩

theorem scanScalar_sound {b : UInt8} {rest r : Bytes} {t : Tree}
    (h : scanScalar d b rest = some (t, r)) :
    b :: rest = t.render ++ r ∧ t.accepted d = true ∧
      ∀ depth, t.events depth = [⟨depth, .value⟩] := by
  unfold scanScalar at h
  split at h
  · next hb =>
    simp only [Option.map_eq_some_iff, Prod.exists, scanLiteral_eq_some_iff, Prod.mk.injEq] at h
    obtain ⟨l, r', ⟨rfl, hd⟩, rfl, rfl⟩ := h
    simp [Tree.render, Literal.render, Tree.accepted, Tree.events, hb, hd]
  · split at h
    · next hb =>
      simp only [Option.map_eq_some_iff, expectWord_eq_some, Prod.mk.injEq] at h
      obtain ⟨r', rfl, rfl, rfl⟩ := h
      exact ⟨by rw [hb]; rfl, rfl, fun _ => rfl⟩
    · split at h
      · next hb =>
        simp only [Option.map_eq_some_iff, expectWord_eq_some, Prod.mk.injEq] at h
        obtain ⟨r', rfl, rfl, rfl⟩ := h
        exact ⟨by rw [hb]; rfl, rfl, fun _ => rfl⟩
      · split at h
        · next hb =>
          simp only [Option.map_eq_some_iff, expectWord_eq_some, Prod.mk.injEq] at h
          obtain ⟨r', rfl, rfl, rfl⟩ := h
          exact ⟨by rw [hb]; rfl, rfl, fun _ => rfl⟩
        · simp only [Option.map_eq_some_iff, Option.filter_eq_some_iff, Prod.exists,
            Prod.mk.injEq] at h
          obtain ⟨n, r', ⟨hn, hd⟩, rfl, rfl⟩ := h
          exact ⟨scanNumber_sound hn, hd, fun _ => rfl⟩

/-- What was read is the rendering of the result, which the dialect takes, and the reports are the
result's events. -/
theorem read_sound (fuel : Nat) :
    (∀ depth s es t r, readValue d fuel depth s = Sax.done es (t, r) →
      s = t.render ++ r ∧ t.accepted d = true ∧ es = t.events depth) ∧
    (∀ depth s es m ms r, readMembers d fuel depth s = Sax.done es ((m, ms), r) →
      s = renderMember m ++ renderMembers ms ++ 0x7D :: r ∧
        membersAccepted d (m :: ms) = true ∧ es = memberEvents depth (m :: ms)) ∧
    (∀ depth s es e rest r, readElements d fuel depth s = Sax.done es ((e, rest), r) →
      s = renderElement e ++ renderElements rest ++ 0x5D :: r ∧
        elementsAccepted d (e :: rest) = true ∧ es = elementEvents depth (e :: rest)) := by
  induction fuel with
  | zero => simp [readValue, readMembers, readElements]
  | succ fuel ih =>
    obtain ⟨ihValue, ihMembers, ihElements⟩ := ih
    refine ⟨?_, ?_, ?_⟩
    -- A value: its first octet selects the production.
    · intro depth s es t r h
      cases s with
      | nil => simp [readValue] at h
      | cons b rest =>
        rw [readValue] at h
        split at h
        · next hb =>
          simp only [Sax.bind_eq_done_iff, Sax.emit_eq_done_iff] at h
          obtain ⟨_, _, after, rfl, h, rfl⟩ := h
          split at h
          · next r' hclose =>
            simp only [Sax.bind_eq_done_iff, Sax.emit_eq_done_iff, Sax.ok_eq_done_iff,
              Prod.mk.injEq] at h
            obtain ⟨_, _, _, rfl, ⟨rfl, rfl, rfl⟩, rfl⟩ := h
            have hrest := takeSpace_sound rest
            rw [expectByte_eq_some.mp hclose] at hrest
            exact ⟨by simp [Tree.render, hb, hrest], rfl, rfl⟩
          · simp only [Sax.bind_eq_done_iff, Sax.emit_eq_done_iff, Sax.ok_eq_done_iff,
              Prod.mk.injEq, Prod.exists] at h
            obtain ⟨_, m, ms, r', _, hms, ⟨_, _, _, rfl, ⟨rfl, rfl, rfl⟩, rfl⟩, rfl⟩ := h
            obtain ⟨rfl, hacc, rfl⟩ := ihMembers _ _ _ _ _ _ hms
            exact ⟨by simp [Tree.render, hb], hacc, by simp [Tree.events, memberEvents]⟩
        · split at h
          · next hb =>
            simp only [Sax.bind_eq_done_iff, Sax.emit_eq_done_iff] at h
            obtain ⟨_, _, after, rfl, h, rfl⟩ := h
            split at h
            · next r' hclose =>
              simp only [Sax.bind_eq_done_iff, Sax.emit_eq_done_iff, Sax.ok_eq_done_iff,
                Prod.mk.injEq] at h
              obtain ⟨_, _, _, rfl, ⟨rfl, rfl, rfl⟩, rfl⟩ := h
              have hrest := takeSpace_sound rest
              rw [expectByte_eq_some.mp hclose] at hrest
              exact ⟨by simp [Tree.render, hb, hrest], rfl, rfl⟩
            · simp only [Sax.bind_eq_done_iff, Sax.emit_eq_done_iff, Sax.ok_eq_done_iff,
                Prod.mk.injEq, Prod.exists] at h
              obtain ⟨_, e, es, r', _, hes, ⟨_, _, _, rfl, ⟨rfl, rfl, rfl⟩, rfl⟩, rfl⟩ := h
              obtain ⟨rfl, hacc, rfl⟩ := ihElements _ _ _ _ _ _ hes
              exact ⟨by simp [Tree.render, hb], hacc, by simp [Tree.events, elementEvents]⟩
          · simp only [Sax.bind_eq_done_iff, Sax.emit_eq_done_iff, Sax.ok_eq_done_iff,
              Sax.ofOption_eq_done_iff, Prod.exists, Prod.mk.injEq] at h
            obtain ⟨_, _, _, _, ⟨rfl, hscan⟩, ⟨_, _, _, rfl, ⟨rfl, rfl, rfl⟩, rfl⟩, rfl⟩ := h
            obtain ⟨hs, hacc, hevents⟩ := scanScalar_sound hscan
            exact ⟨hs, hacc, (hevents depth).symm⟩
    -- Members: one member, then its comma and the others or the closing brace.
    · intro depth s es m ms r h
      rw [readMembers] at h
      simp only [Sax.bind_eq_done_iff, Sax.emit_eq_done_iff, Sax.ofOption_eq_done_iff,
        Prod.exists] at h
      obtain ⟨_, s₁, _, ⟨rfl, hquote⟩, ⟨_, key, s₂, _, ⟨rfl, hkey⟩, ⟨_, _, _, rfl,
        ⟨_, s₃, _, ⟨rfl, hcolon⟩, ⟨_, v, s₄, _, hv, ⟨_, more, s₅, _, ⟨rfl, hmore⟩, h, rfl⟩, rfl⟩,
          rfl⟩, rfl⟩, rfl⟩, rfl⟩ := h
      obtain ⟨hs₂, hkeyAcc⟩ := scanLiteral_eq_some_iff.mp hkey
      obtain ⟨hs₃, hvAcc, rfl⟩ := ihValue _ _ _ _ _ hv
      have htext : s = (takeSpace s).1.text ++ Literal.render key ++ (takeSpace s₂).1.text ++
          0x3A :: ((takeSpace s₃).1.text ++ v.render ++ (takeSpace s₄).1.text) ++
          (if more then 0x2C else 0x7D) :: s₅ := by
        have hs₃' := takeSpace_sound s₃
        rw [hs₃] at hs₃'
        conv_lhs => rw [expectByte_takeSpace hquote, hs₂, expectByte_takeSpace hcolon, ← hs₃',
          commaOr_takeSpace hmore]
        simp [Literal.render]
      cases more with
      | true =>
        simp only [if_true, Sax.bind_eq_done_iff, Sax.ok_eq_done_iff, Prod.mk.injEq,
          Prod.exists] at h
        obtain ⟨_, m', ms', s₆, _, hms, ⟨rfl, ⟨rfl, rfl⟩, rfl⟩, rfl⟩ := h
        obtain ⟨rfl, hmsAcc, rfl⟩ := ihMembers _ _ _ _ _ _ hms
        refine ⟨?_, ?_, ?_⟩
        · refine htext.trans ?_
          simp [renderMember, renderMembers]
        · simpa [membersAccepted, hkeyAcc, hvAcc] using hmsAcc
        · simp [memberEvents]
      | false =>
        simp only [Bool.false_eq_true, if_false, Sax.ok_eq_done_iff, Prod.mk.injEq] at h
        obtain ⟨rfl, ⟨rfl, rfl⟩, rfl⟩ := h
        refine ⟨?_, ?_, ?_⟩
        · refine htext.trans ?_
          simp [renderMember, renderMembers]
        · simp [membersAccepted, hkeyAcc, hvAcc]
        · simp [memberEvents]
    -- Elements: the same without keys.
    · intro depth s es e rest r h
      rw [readElements] at h
      simp only [Sax.bind_eq_done_iff, Sax.ofOption_eq_done_iff, Prod.exists] at h
      obtain ⟨_, v, s₁, _, hv, ⟨_, more, s₂, _, ⟨rfl, hmore⟩, h, rfl⟩, rfl⟩ := h
      obtain ⟨hs₁, hvAcc, rfl⟩ := ihValue _ _ _ _ _ hv
      have htext : s = (takeSpace s).1.text ++ v.render ++ (takeSpace s₁).1.text ++
          (if more then 0x2C else 0x5D) :: s₂ := by
        have hs₁' := takeSpace_sound s
        rw [hs₁] at hs₁'
        conv_lhs => rw [← hs₁', commaOr_takeSpace hmore]
        simp
      cases more with
      | true =>
        simp only [if_true, Sax.bind_eq_done_iff, Sax.ok_eq_done_iff, Prod.mk.injEq,
          Prod.exists] at h
        obtain ⟨_, e', es', s₃, _, hes, ⟨rfl, ⟨rfl, rfl⟩, rfl⟩, rfl⟩ := h
        obtain ⟨rfl, hesAcc, rfl⟩ := ihElements _ _ _ _ _ _ hes
        refine ⟨?_, ?_, ?_⟩
        · refine htext.trans ?_
          simp [renderElement, renderElements]
        · simpa [elementsAccepted, hvAcc] using hesAcc
        · simp [elementEvents]
      | false =>
        simp only [Bool.false_eq_true, if_false, Sax.ok_eq_done_iff, Prod.mk.injEq] at h
        obtain ⟨rfl, ⟨rfl, rfl⟩, rfl⟩ := h
        refine ⟨?_, ?_, ?_⟩
        · refine htext.trans ?_
          simp [renderElement, renderElements]
        · simp [elementsAccepted, hvAcc]
        · simp [elementEvents]

/-! ## Completeness -/

/-- A value's first octet is neither whitespace nor a closing bracket. -/
theorem Tree.render_head (t : Tree) :
    ∃ b rest, t.render = b :: rest ∧ isSpace b = false ∧ b ≠ 0x5D := by
  cases t with
  | number n =>
    obtain ⟨b, rest, h⟩ := n.render_head
    have hb : isNumberByte b = true := n.mem_render (by simp [h])
    have hspace : isSpace b = false := by
      simp [isSpace, numberByte_ne hb 0x20 (by decide), numberByte_ne hb 0x09 (by decide),
        numberByte_ne hb 0x0A (by decide), numberByte_ne hb 0x0D (by decide)]
    exact ⟨b, rest, h, hspace, numberByte_ne hb 0x5D (by decide)⟩
  | null => exact ⟨_, _, rfl, by decide, by decide⟩
  | bool b => cases b <;> exact ⟨_, _, rfl, by decide, by decide⟩
  | string l => exact ⟨_, _, rfl, by decide, by decide⟩
  | emptyArray inner => exact ⟨_, _, rfl, by decide, by decide⟩
  | array first rest => exact ⟨_, _, rfl, by decide, by decide⟩
  | emptyObject inner => exact ⟨_, _, rfl, by decide, by decide⟩
  | object first rest => exact ⟨_, _, rfl, by decide, by decide⟩

theorem scanScalar_render {t : Tree} (hd : t.accepted d = true)
    (ht : ∀ depth, t.events depth = [⟨depth, .value⟩]) {b : UInt8} {rest r : Bytes}
    (hr : Delimited r) (h : t.render ++ r = b :: rest) :
    b ≠ 0x7B ∧ b ≠ 0x5B ∧ scanScalar d b rest = some (t, r) := by
  cases t with
  | null =>
    obtain ⟨rfl, rfl⟩ := List.cons.inj h
    exact ⟨by decide, by decide, by simp [scanScalar]; rfl⟩
  | bool v =>
    cases v <;> obtain ⟨rfl, rfl⟩ := List.cons.inj h <;>
      exact ⟨by decide, by decide, by simp [scanScalar]; rfl⟩
  | string l =>
    obtain ⟨rfl, rfl⟩ := List.cons.inj h
    refine ⟨by decide, by decide, ?_⟩
    have hl := (scanLiteral_eq_some_iff (d := d) (s := Literal.raw l ++ 0x22 :: r)).mpr ⟨rfl, hd⟩
    simp [scanScalar, hl]
  | number n =>
    -- a number starts with a digit or a minus, which opens nothing else
    obtain ⟨c, rest', hn⟩ := n.render_head
    have hc : isNumberByte c = true := n.mem_render (by simp [hn])
    have hscan := scanNumber_render n hr.notStarting
    rw [Tree.render] at h
    rw [h] at hscan
    rw [hn] at h
    obtain ⟨rfl, -⟩ := List.cons.inj h
    refine ⟨numberByte_ne hc _ (by decide), numberByte_ne hc _ (by decide), ?_⟩
    rw [Tree.accepted] at hd
    simp [scanScalar, numberByte_ne hc 0x22 (by decide), numberByte_ne hc 0x6E (by decide),
      numberByte_ne hc 0x74 (by decide), numberByte_ne hc 0x66 (by decide), hscan, hd]
  | emptyArray inner => simp [Tree.events] at ht
  | array first rest => simp [Tree.events] at ht
  | emptyObject inner => simp [Tree.events] at ht
  | object first rest => simp [Tree.events] at ht

theorem delimited_members (ms : List (Member Tree)) (r : Bytes) :
    Delimited (renderMembers ms ++ 0x7D :: r) := by
  cases ms <;> simp [renderMembers, isDelimiter]

theorem delimited_elements (es : List (Element Tree)) (r : Bytes) :
    Delimited (renderElements es ++ 0x5D :: r) := by
  cases es <;> simp [renderElements, isDelimiter]

theorem readValue_scalar {t : Tree} (hd : t.accepted d = true)
    (ht : ∀ depth, t.events depth = [⟨depth, .value⟩]) {r : Bytes} (hr : Delimited r)
    (fuel depth : Nat) :
    readValue d (fuel + 1) depth (t.render ++ r) = Sax.done (t.events depth) (t, r) := by
  obtain ⟨b, rest, hb, -⟩ := t.render_head
  have hhead : t.render ++ r = b :: (rest ++ r) := by rw [hb, List.cons_append]
  obtain ⟨hobject, harray, hscan⟩ := scanScalar_render hd ht hr hhead
  rw [hb, List.cons_append, readValue, if_neg hobject, if_neg harray, hscan, ht]
  rfl

/-- The space before a value ends where the value begins. -/
theorem takeSpace_value (sp : Space) (t : Tree) (r : Bytes) :
    takeSpace (sp.text ++ (t.render ++ r)) = (sp, t.render ++ r) := by
  obtain ⟨b, rest, hb, hspace, -⟩ := t.render_head
  exact takeSpace_render sp (by simp [hb, hspace])

theorem expectByte_element (e : Element Tree) (r : Bytes) :
    expectByte 0x5D (takeSpace (renderElement e ++ r)).2 = none := by
  obtain ⟨before, v, after⟩ := e
  obtain ⟨b, rest, hb, -, hclose⟩ := v.render_head
  rw [renderElement, List.append_assoc, List.append_assoc, takeSpace_value]
  simp [hb, expectByte, hclose]

theorem takeSpace_member (m : Member Tree) (r : Bytes) :
    takeSpace (renderMember m ++ r) =
      (m.before, Literal.render m.key ++ (m.afterKey.text ++ 0x3A ::
        (m.beforeValue.text ++ (m.value.render ++ (m.after.text ++ r))))) := by
  obtain ⟨before, key, afterKey, beforeValue, v, after⟩ := m
  have h := takeSpace_render before (r := Literal.render key ++ (afterKey.text ++ 0x3A ::
    (beforeValue.text ++ (v.render ++ (after.text ++ r))))) (by simp [Literal.render, isSpace])
  simpa [renderMember] using h

/-- A rendered tree is read back, in as much fuel as twice its length. -/
theorem read_render (fuel : Nat) :
    (∀ depth t r, t.accepted d = true → Delimited r → 2 * t.render.length ≤ fuel →
      readValue d fuel depth (t.render ++ r) = Sax.done (t.events depth) (t, r)) ∧
    (∀ depth m ms r, membersAccepted d (m :: ms) = true →
      2 * (renderMember m ++ renderMembers ms).length + 1 ≤ fuel →
      readMembers d fuel depth (renderMember m ++ renderMembers ms ++ 0x7D :: r) =
        Sax.done (memberEvents depth (m :: ms)) ((m, ms), r)) ∧
    (∀ depth e es r, elementsAccepted d (e :: es) = true →
      2 * (renderElement e ++ renderElements es).length + 1 ≤ fuel →
      readElements d fuel depth (renderElement e ++ renderElements es ++ 0x5D :: r) =
        Sax.done (elementEvents depth (e :: es)) ((e, es), r)) := by
  induction fuel with
  | zero =>
    refine ⟨fun depth t r _ _ hfuel => ?_, fun _ _ _ _ _ hfuel => by omega,
      fun _ _ _ _ _ hfuel => by omega⟩
    obtain ⟨b, rest, ht, -⟩ := t.render_head
    simp [ht] at hfuel
  | succ fuel ih =>
    -- Fuel of twice the length pays for one call at each value and one at each list.
    obtain ⟨ihValue, ihMembers, ihElements⟩ := ih
    refine ⟨?_, ?_, ?_⟩
    · intro depth t r hd hr hfuel
      cases t with
      | null => exact readValue_scalar hd (fun _ => rfl) hr fuel depth
      | bool b => exact readValue_scalar hd (fun _ => rfl) hr fuel depth
      | number n => exact readValue_scalar hd (fun _ => rfl) hr fuel depth
      | string l => exact readValue_scalar hd (fun _ => rfl) hr fuel depth
      | emptyArray inner =>
        have hspace : takeSpace (inner.text ++ 0x5D :: r) = (inner, 0x5D :: r) :=
          takeSpace_render inner (by simp [isSpace])
        simp only [Tree.render, List.cons_append, List.append_assoc, List.nil_append, readValue,
          hspace, expectByte, if_true]
        rfl
      | emptyObject inner =>
        have hspace : takeSpace (inner.text ++ 0x7D :: r) = (inner, 0x7D :: r) :=
          takeSpace_render inner (by simp [isSpace])
        simp only [Tree.render, List.cons_append, List.append_assoc, List.nil_append, readValue,
          hspace, expectByte, if_true]
        rfl
      | array first rest =>
        have hlen : 2 * (renderElement first ++ renderElements rest).length + 1 ≤ fuel := by
          simp only [Tree.render, List.length_cons, List.length_append, List.length_nil] at hfuel ⊢
          omega
        have hread := ihElements (depth + 1) first rest r hd hlen
        have hclose := expectByte_element first (renderElements rest ++ 0x5D :: r)
        rw [← List.append_assoc] at hclose
        have htext : (Tree.array first rest).render ++ r =
            0x5B :: (renderElement first ++ renderElements rest ++ 0x5D :: r) := by
          simp [Tree.render]
        rw [htext, readValue, if_neg (by decide), if_pos rfl, hclose]
        refine (Sax.bind_done rfl (Sax.bind_done hread (Sax.bind_done rfl rfl))).trans ?_
        simp [Tree.events, elementEvents]
      | object first rest =>
        have hlen : 2 * (renderMember first ++ renderMembers rest).length + 1 ≤ fuel := by
          simp only [Tree.render, List.length_cons, List.length_append, List.length_nil] at hfuel ⊢
          omega
        have hread := ihMembers (depth + 1) first rest r hd hlen
        -- a first member begins with a quote, so the object is not closed at once
        have hclose : expectByte 0x7D (takeSpace
            (renderMember first ++ renderMembers rest ++ 0x7D :: r)).2 = none := by
          rw [List.append_assoc, takeSpace_member]
          simp [Literal.render, expectByte]
        have htext : (Tree.object first rest).render ++ r =
            0x7B :: (renderMember first ++ renderMembers rest ++ 0x7D :: r) := by
          simp [Tree.render]
        rw [htext, readValue, if_pos rfl, hclose]
        refine (Sax.bind_done rfl (Sax.bind_done hread (Sax.bind_done rfl rfl))).trans ?_
        simp [Tree.events, memberEvents]
    · intro depth m ms r hd hfuel
      obtain ⟨before, key, afterKey, beforeValue, v, after⟩ := m
      simp only [membersAccepted, Bool.and_eq_true] at hd
      simp only [renderMember, List.length_append, List.length_cons] at hfuel
      have hafter := delimited_space_append after (delimited_members ms r)
      have hv := ihValue depth v _ hd.1.2 hafter (by omega)
      have hspace := takeSpace_member ⟨before, key, afterKey, beforeValue, v, after⟩
        (renderMembers ms ++ 0x7D :: r)
      have hkey (x : Bytes) : scanLiteral d (Literal.raw key ++ 0x22 :: x) = some (key, x) :=
        scanLiteral_eq_some_iff.mpr ⟨rfl, hd.1.1⟩
      have hcolon (x : Bytes) : takeSpace (afterKey.text ++ 0x3A :: x) = (afterKey, 0x3A :: x) :=
        takeSpace_render afterKey (by simp [isSpace])
      have hvalue := takeSpace_value beforeValue v (after.text ++ (renderMembers ms ++ 0x7D :: r))
      rw [List.append_assoc, readMembers]
      simp only [hspace, Literal.render, List.cons_append, List.append_assoc, List.nil_append,
        expectByte, if_true, Sax.ofOption_some, Sax.done_bind, hkey, Sax.emit, hcolon, hvalue, hv]
      cases ms with
      | nil =>
        have hend : takeSpace (after.text ++ 0x7D :: r) = (after, 0x7D :: r) :=
          takeSpace_render after (by simp [isSpace])
        simp [renderMembers, hend, commaOr, memberEvents, Sax.ok]
      | cons m' ms' =>
        have hend : takeSpace (after.text ++ 0x2C :: (renderMember m' ++ renderMembers ms' ++
            0x7D :: r)) = (after, 0x2C :: (renderMember m' ++ renderMembers ms' ++ 0x7D :: r)) :=
          takeSpace_render after (by simp [isSpace])
        simp only [renderMembers, List.length_cons, List.length_append] at hfuel
        have hrest := ihMembers depth m' ms' r hd.2 (by simp only [List.length_append]; omega)
        simp only [List.append_assoc] at hend hrest
        simp [renderMembers, hend, commaOr, hrest, memberEvents, Sax.ok]
    · intro depth e es r hd hfuel
      obtain ⟨before, v, after⟩ := e
      simp only [elementsAccepted, Bool.and_eq_true] at hd
      simp only [renderElement, List.length_append] at hfuel
      have hafter := delimited_space_append after (delimited_elements es r)
      have hv := ihValue depth v _ hd.1 hafter (by omega)
      have hspace := takeSpace_value before v (after.text ++ (renderElements es ++ 0x5D :: r))
      simp only [renderElement, List.append_assoc, readElements, hspace, hv, Sax.done_bind]
      cases es with
      | nil =>
        have hend : takeSpace (after.text ++ 0x5D :: r) = (after, 0x5D :: r) :=
          takeSpace_render after (by simp [isSpace])
        simp [renderElements, hend, commaOr, elementEvents, Sax.ok]
      | cons e' es' =>
        have hend : takeSpace (after.text ++ 0x2C :: (renderElement e' ++ renderElements es' ++
            0x5D :: r)) = (after, 0x2C :: (renderElement e' ++ renderElements es' ++ 0x5D :: r)) :=
          takeSpace_render after (by simp [isSpace])
        simp only [renderElements, List.length_cons, List.length_append] at hfuel
        have hrest := ihElements depth e' es' r hd.2 (by simp only [List.length_append]; omega)
        simp only [List.append_assoc] at hend hrest
        simp [renderElements, hend, commaOr, hrest, elementEvents, Sax.ok]

/-! ## Whole Texts -/

theorem readDocument_eq_done_iff {s : Bytes} {doc : Element Tree} {es : List ParseEvent} :
    readDocument d s = Sax.done es doc ↔
      renderElement doc = s ∧ doc.value.accepted d = true ∧ es = doc.value.events 0 := by
  constructor
  · intro h
    simp only [readDocument, Sax.bind_eq_done_iff, Prod.exists] at h
    obtain ⟨_, v, s₁, _, hv, h, rfl⟩ := h
    split at h
    · next hempty =>
      simp only [Sax.ok_eq_done_iff] at h
      obtain ⟨rfl, rfl⟩ := h
      obtain ⟨hs, hacc, rfl⟩ := (read_sound _).1 _ _ _ _ _ hv
      -- what was read is the text before the value, the value and the text after it
      have hbefore := takeSpace_sound s
      have hafter := takeSpace_sound s₁
      rw [List.isEmpty_iff.mp hempty, List.append_nil] at hafter
      refine ⟨?_, hacc, by simp⟩
      rw [hs] at hbefore
      simp [renderElement, hafter, hbefore]
    · simp at h
  · rintro ⟨rfl, hacc, rfl⟩
    obtain ⟨before, v, after⟩ := doc
    have hlen : 2 * v.render.length ≤ 2 * (renderElement ⟨before, v, after⟩).length + 1 := by
      simp only [renderElement, List.length_append]
      omega
    have hafter : Delimited after.text := by
      simpa using delimited_space_append after delimited_nil
    have hread := (read_render _).1 0 v after.text hacc hafter hlen
    have hend : takeSpace after.text = (after, []) := by
      simpa using takeSpace_render after (notStarting_nil isSpace)
    have hspace := takeSpace_value before v after.text
    rw [readDocument, renderElement, List.append_assoc, hspace]
    rw [renderElement, List.append_assoc] at hread
    simp only [hread, Sax.done_bind]
    simp [hend, Sax.ok]

/-- A text is parsed to a document exactly when it is the document's rendering and the dialect
takes every token of it. -/
theorem parse_eq_some_iff {s : Bytes} {doc : Element Tree} :
    parse d s = some doc ↔ renderElement doc = s ∧ doc.value.accepted d = true := by
  constructor
  · intro h
    have hdone : readDocument d s = Sax.done (readDocument d s).reports doc :=
      congrArg (Sax.mk _) h
    obtain ⟨hs, hacc, -⟩ := readDocument_eq_done_iff.mp hdone
    exact ⟨hs, hacc⟩
  · rintro ⟨hs, hacc⟩
    exact congrArg Sax.result (readDocument_eq_done_iff.mpr ⟨hs, hacc, rfl⟩)

/-- A text that parses is reported by its document's events. -/
theorem reports_of_parse {s : Bytes} {doc : Element Tree} (h : parse d s = some doc) :
    (readDocument d s).reports = doc.value.events 0 := by
  obtain ⟨hs, hacc⟩ := parse_eq_some_iff.mp h
  rw [readDocument_eq_done_iff.mpr ⟨hs, hacc, rfl⟩]
  rfl

/-- A text has at most one concrete syntax. -/
theorem renderElement_injective : Function.Injective renderElement := by
  intro doc doc' h
  have hdoc := parse_eq_some_iff.mpr ⟨h, doc.value.accepted_rfc8259⟩
  have hdoc' := parse_eq_some_iff.mpr ⟨rfl, doc'.value.accepted_rfc8259⟩
  exact Option.some.inj (hdoc.symm.trans hdoc')

/-! ## UTF-8 -/

theorem ascii_of_numberByte {b : UInt8} (h : isNumberByte b = true) : b ≤ 0x7F := by
  have hall : ∀ n : Fin 256, isNumberByte (UInt8.ofFin n) = true → UInt8.ofFin n ≤ 0x7F := by
    decide +kernel
  exact hall b.toFin h

theorem Space.valid (sp : Space) : Utf8.valid sp.text = true := by
  refine Utf8.valid_of_ascii fun b hb => ?_
  have hspace := List.all_eq_true.mp sp.spaces b hb
  simp only [isSpace, Bool.or_eq_true, beq_iff_eq] at hspace
  rcases hspace with ((rfl | rfl) | rfl) | rfl <;> decide

theorem Literal.valid_render {l : Literal} (h : Utf8.valid (Literal.raw l) = true) :
    Utf8.valid (Literal.render l) = true :=
  Utf8.valid_cons_ascii (by decide) (Utf8.valid_append h (by decide))

theorem valid_renderElement {e : Element Tree} (h : Utf8.valid e.value.render = true) :
    Utf8.valid (renderElement e) = true := by
  obtain ⟨before, v, after⟩ := e
  exact Utf8.valid_append (Utf8.valid_append before.valid h) after.valid

theorem valid_renderElements {es : List (Element Tree)}
    (h : ∀ e ∈ es, Utf8.valid e.value.render = true) : Utf8.valid (renderElements es) = true := by
  induction es with
  | nil => rfl
  | cons e rest ih =>
    rw [List.forall_mem_cons] at h
    exact Utf8.valid_cons_ascii (by decide) (Utf8.valid_append (valid_renderElement h.1) (ih h.2))

theorem valid_renderMember {m : Member Tree} (hkey : Utf8.valid (Literal.raw m.key) = true)
    (h : Utf8.valid m.value.render = true) : Utf8.valid (renderMember m) = true := by
  obtain ⟨before, key, afterKey, beforeValue, v, after⟩ := m
  refine Utf8.valid_append (Utf8.valid_append (Utf8.valid_append before.valid
    (Literal.valid_render hkey)) afterKey.valid) (Utf8.valid_cons_ascii (by decide) ?_)
  exact Utf8.valid_append (Utf8.valid_append beforeValue.valid h) after.valid

theorem valid_renderMembers {ms : List (Member Tree)}
    (h : ∀ m ∈ ms, Utf8.valid (Literal.raw m.key) = true ∧ Utf8.valid m.value.render = true) :
    Utf8.valid (renderMembers ms) = true := by
  induction ms with
  | nil => rfl
  | cons m rest ih =>
    rw [List.forall_mem_cons] at h
    exact Utf8.valid_cons_ascii (by decide)
      (Utf8.valid_append (valid_renderMember h.1.1 h.1.2) (ih h.2))

/-- A tree whose strings are UTF-8 renders to UTF-8. -/
theorem Tree.valid_render (t : Tree) (h : t.accepted Dialect.utf8 = true) :
    Utf8.valid t.render = true := by
  induction t with
  | null => decide
  | bool b => cases b <;> decide
  | number n => exact Utf8.valid_of_ascii fun b hb => ascii_of_numberByte (n.mem_render hb)
  | string l => exact Literal.valid_render h
  | emptyArray inner =>
    exact Utf8.valid_cons_ascii (by decide) (Utf8.valid_append inner.valid (by decide))
  | emptyObject inner =>
    exact Utf8.valid_cons_ascii (by decide) (Utf8.valid_append inner.valid (by decide))
  | array first rest ih =>
    rw [Tree.accepted_array, List.all_eq_true] at h
    have hes := fun e he => ih e he (h e he)
    rw [List.forall_mem_cons] at hes
    exact Utf8.valid_cons_ascii (by decide) (Utf8.valid_append (Utf8.valid_append
      (valid_renderElement hes.1) (valid_renderElements hes.2)) (by decide))
  | object first rest ih =>
    rw [Tree.accepted_object, List.all_eq_true] at h
    have hms := fun m hm => (Bool.and_eq_true _ _ ▸ h m hm).imp id (ih m hm)
    rw [List.forall_mem_cons] at hms
    exact Utf8.valid_cons_ascii (by decide) (Utf8.valid_append (Utf8.valid_append
      (valid_renderMember hms.1.1 hms.1.2) (valid_renderMembers hms.2)) (by decide))

end EquipmentMonitoring.Json
