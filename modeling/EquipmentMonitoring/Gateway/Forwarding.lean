import EquipmentMonitoring.Gateway.Accepted
import EquipmentMonitoring.Gateway.Scanner

/-!
# Forwarding Preserves Content

The request text is built from spans of the stored payload. Here it is shown to be the rendering
of a syntax tree that has the payload's members, so that no argument about positions is needed
further on.

## Key Results

- `copyMembers_render`: the copying loop visits every member once, in order
- `backendEventJson_eq`: the forwarded text renders `forwardedTree`
- `batchJson_eq`: the request body renders `batchTree`
- `forwarding_preserves_content`: both, for payloads that `parse` accepts
-/

namespace EquipmentMonitoring.Forwarder

open EquipmentMonitoring.Json EquipmentMonitoring.Telemetry

/-! ## Members as Copied -/

/-- A member without the space before its key. -/
def trimmed (m : Member Tree) : Member Tree := { m with before := Space.none }

/-- The members that are forwarded. -/
def kept (ms : List (Member Tree)) : List (Member Tree) :=
  (ms.filter fun m => decide (m.name ≠ schemaKey)).map trimmed

/-- The copying loop over whole members. -/
def copied (st : Copied) (ms : List (Member Tree)) : Copied :=
  ms.foldl (fun st m => st.addMember m.name (renderMember (trimmed m))) st

theorem isCSpace_of_isSpace {b : UInt8} (h : isSpace b = true) : isCSpace b = true := by
  simp only [isSpace, Bool.or_eq_true, beq_iff_eq] at h
  rcases h with ((rfl | rfl) | rfl) | rfl <;> decide

theorem skipSpace_space (sp : Space) {r : Bytes} (hr : NotStarting isCSpace r) :
    (sp.text ++ r).takeWhile isCSpace = sp.text ∧ skipSpace (sp.text ++ r) = r :=
  takeWhile_append_of_all
    (List.all_eq_true.mpr fun b hb => isCSpace_of_isSpace (List.all_eq_true.mp sp.spaces b hb)) hr

theorem skipBom_of_head {b : UInt8} {s : Bytes} (hb : b ≠ 0xEF) :
    Nlohmann.skipBom (b :: s) = b :: s := by
  have : Nlohmann.byteOrderMark.isPrefixOf (b :: s) = false := by
    simp [Nlohmann.byteOrderMark, List.isPrefixOf, hb.symm]
  simp [Nlohmann.skipBom, this]

/-- A key is decoded as the literal says. -/
theorem parseKey_render [Nlohmann.Library] {key : Literal}
    (hkey : Nlohmann.dialect.string key = true) :
    parseKey (Literal.render key) = .ok (Literal.decode key) := by
  have hparse : Nlohmann.parse (Literal.render key) =
      some ⟨Space.none, .string key, Space.none⟩ := by
    refine Nlohmann.parse_eq_some_iff.mpr ⟨?_, hkey⟩
    rw [Literal.render, skipBom_of_head (by decide)]
    simp [renderElement, Space.none, Tree.render, Literal.render]
  simp [parseKey, hparse]

/-- What the value of a member and the text behind it look like to the scanner. -/
theorem memberEnd_value (m : Member Tree) {close : UInt8} (hclose : close = 0x2C ∨ close = 0x7D)
    (r : Bytes) :
    memberEnd ((m.beforeValue.text ++ m.value.render ++ m.after.text ++ close :: r).length + 1) 0
        (m.beforeValue.text ++ m.value.render ++ m.after.text ++ close :: r) =
      .ok (m.beforeValue.text ++ m.value.render ++ m.after.text, close :: r) := by
  have hskips := ((skips_space m.beforeValue).append (skips_value m.value)).append
    (skips_space m.after)
  have hscan := hskips 0 (Nat.le_refl 0) (close :: r)
  have hend : scanMember 0 (close :: r) = .ok ([], close :: r) := by
    rcases hclose with rfl | rfl <;> simp [scanMember_cons]
  rw [hend] at hscan
  simpa [scanMember, before, Except.map] using hscan

theorem renderMember_eq (m : Member Tree) (r : Bytes) :
    renderMember m ++ r = m.before.text ++ (Literal.render m.key ++ (m.afterKey.text ++ 0x3A ::
      (m.beforeValue.text ++ m.value.render ++ m.after.text ++ r))) := by
  obtain ⟨before, key, afterKey, beforeValue, v, after⟩ := m
  simp [renderMember]

/-- One round of the loop: a member is added whole. -/
theorem copyMembers_step [Nlohmann.Library] (fuel : Nat) (st : Copied) (m : Member Tree)
    {close : UInt8} (r : Bytes) (hclose : close = 0x2C ∨ close = 0x7D)
    (hkey : Nlohmann.dialect.string m.key = true) :
    copyMembers (fuel + 1) st (renderMember m ++ close :: r) =
      if close = 0x7D then .ok (st.addMember m.name (renderMember (trimmed m)))
      else copyMembers fuel (st.addMember m.name (renderMember (trimmed m))) r := by
  rw [renderMember_eq, copyMembers]
  have hbefore := (skipSpace_space m.before (r := Literal.render m.key ++ (m.afterKey.text ++
    0x3A :: (m.beforeValue.text ++ m.value.render ++ m.after.text ++ close :: r)))
    (by simp [Literal.render, isCSpace])).2
  have hafter := skipSpace_space m.afterKey (r := 0x3A :: (m.beforeValue.text ++ m.value.render ++
    m.after.text ++ close :: r)) (by simp [isCSpace])
  have hquoted := quotedEnd_render m.key (m.afterKey.text ++ 0x3A :: (m.beforeValue.text ++
    m.value.render ++ m.after.text ++ close :: r))
  have hspan := memberEnd_value m hclose r
  -- What is appended is the member without the space around it.
  have htext : Literal.render m.key ++ (m.afterKey.text ++ 0x3A ::
      (m.beforeValue.text ++ m.value.render ++ m.after.text)) = renderMember (trimmed m) := by
    have h := renderMember_eq (trimmed m) []
    simpa [trimmed, Space.none] using h.symm
  obtain ⟨q, hq⟩ : ∃ q, ∀ x, Literal.render m.key ++ x = 0x22 :: (q ++ x) :=
    ⟨Literal.raw m.key ++ [0x22], fun x => by simp [Literal.render]⟩
  rw [hq] at hquoted
  rw [hbefore, hq]
  simp only [show (0x22 : UInt8) ≠ 0x7D by decide, if_false, hquoted, bind, Except.bind,
    parseKey_render hkey, hafter, ne_eq, not_true_eq_false, hspan]
  rw [List.append_assoc, htext]
  rfl

/-- The loop visits every member once, in order. -/
theorem copyMembers_render [Nlohmann.Library] (fuel : Nat) (st : Copied) (m : Member Tree)
    (ms : List (Member Tree)) (r : Bytes)
    (hkeys : ∀ x ∈ m :: ms, Nlohmann.dialect.string x.key = true) (hfuel : ms.length < fuel) :
    copyMembers fuel st (renderMember m ++ renderMembers ms ++ 0x7D :: r) =
      .ok (copied st (m :: ms)) := by
  induction ms generalizing fuel st m with
  | nil =>
    obtain ⟨fuel, rfl⟩ : ∃ n, fuel = n + 1 := ⟨fuel - 1, by omega⟩
    rw [renderMembers, List.append_nil,
      copyMembers_step fuel st m r (.inr rfl) (hkeys m (List.mem_cons_self ..)), if_pos rfl]
    rfl
  | cons m' rest ih =>
    simp only [List.length_cons] at hfuel
    obtain ⟨fuel, rfl⟩ : ∃ n, fuel = n + 1 := ⟨fuel - 1, by omega⟩
    rw [renderMembers, List.append_assoc, List.cons_append,
      copyMembers_step fuel st m _ (.inl rfl) (hkeys m (List.mem_cons_self ..)),
      if_neg (by decide), ih fuel _ m' (fun x hx => hkeys x (List.mem_cons_of_mem _ hx)) (by omega)]
    rfl

/-! ## The Forwarded Object -/

def hasSchema (ms : List (Member Tree)) : Bool := ms.any fun m => decide (m.name = schemaKey)

theorem kept_cons (m : Member Tree) (ms : List (Member Tree)) :
    kept (m :: ms) = if m.name = schemaKey then kept ms else trimmed m :: kept ms := by
  by_cases h : m.name = schemaKey <;> simp [kept, h]

@[simp] theorem copied_nil (st : Copied) : copied st [] = st := rfl

theorem copied_cons (st : Copied) (m : Member Tree) (ms : List (Member Tree)) :
    copied st (m :: ms) = copied (st.addMember m.name (renderMember (trimmed m))) ms := rfl

theorem addMember_schema (st : Copied) {key : Bytes} (text : Bytes) (h : key = schemaKey) :
    st.addMember key text = ⟨st.output, true, st.hasMember⟩ := by
  rw [Copied.addMember, if_pos h]

theorem addMember_first (output : Bytes) (schema : Bool) {key : Bytes} (text : Bytes)
    (h : key ≠ schemaKey) :
    Copied.addMember ⟨output, schema, false⟩ key text = ⟨output ++ text, schema, true⟩ := by
  rw [Copied.addMember, if_neg h]
  rfl

theorem addMember_next (output : Bytes) (schema : Bool) {key : Bytes} (text : Bytes)
    (h : key ≠ schemaKey) :
    Copied.addMember ⟨output, schema, true⟩ key text =
      ⟨output ++ 0x2C :: text, schema, true⟩ := by
  rw [Copied.addMember, if_neg h]
  simp

theorem copied_of_hasMember (output : Bytes) (schema : Bool) (ms : List (Member Tree)) :
    copied ⟨output, schema, true⟩ ms =
      ⟨output ++ renderMembers (kept ms), schema || hasSchema ms, true⟩ := by
  induction ms generalizing output schema with
  | nil => simp [kept, renderMembers, hasSchema]
  | cons m rest ih =>
    rw [copied_cons, kept_cons]
    by_cases h : m.name = schemaKey
    · rw [addMember_schema _ _ h, ih]
      simp [h, hasSchema]
    · rw [addMember_next _ _ _ h, ih]
      simp [h, hasSchema, renderMembers]

theorem copied_first (output : Bytes) (schema : Bool) (ms : List (Member Tree)) :
    copied ⟨output, schema, false⟩ ms =
      match kept ms with
      | [] => ⟨output, schema || hasSchema ms, false⟩
      | k :: ks => ⟨output ++ renderMember k ++ renderMembers ks, schema || hasSchema ms, true⟩ := by
  induction ms generalizing schema with
  | nil => simp [kept, hasSchema]
  | cons m rest ih =>
    rw [copied_cons, kept_cons]
    by_cases h : m.name = schemaKey
    · rw [addMember_schema _ _ h, ih]
      simp [h, hasSchema]
    · rw [addMember_first _ _ _ h, copied_of_hasMember]
      simp [h, hasSchema]

def receiptKey : Bytes := ascii "gateway_received_at"

/-- The member that carries the receipt time. -/
def receiptMember [Nlohmann.Library] (receivedAt : Bytes) : Member Tree :=
  ⟨Space.none, Nlohmann.dumpLiteral receiptKey, Space.none, Space.none,
    .string (Nlohmann.Library.token receivedAt), Space.none⟩

def forwardedMembers [Nlohmann.Library] (ms : List (Member Tree)) (receivedAt : Bytes) :
    List (Member Tree) :=
  kept ms ++ [receiptMember receivedAt]

def forwardedTree [Nlohmann.Library] (ms : List (Member Tree)) (receivedAt : Bytes) : Tree :=
  Tree.ofMembers (forwardedMembers ms receivedAt)

theorem renderMembers_append (ms ns : List (Member Tree)) :
    renderMembers (ms ++ ns) = renderMembers ms ++ renderMembers ns := by
  induction ms with
  | nil => rfl
  | cons m rest ih => simp [renderMembers, ih]

theorem length_renderMembers (ms : List (Member Tree)) :
    ms.length ≤ (renderMembers ms).length := by
  induction ms with
  | nil => exact Nat.le_refl 0
  | cons m rest ih =>
    simp only [renderMembers, List.length_cons, List.length_append]
    omega

theorem renderMember_receipt [Nlohmann.Library] (receivedAt : Bytes) :
    0x2C :: renderMember (receiptMember receivedAt) =
      ascii ",\"gateway_received_at\":" ++
        Literal.render (Nlohmann.Library.token receivedAt) := by
  have hkey : 0x2C :: (Literal.render (Nlohmann.dumpLiteral receiptKey) ++ [0x3A]) =
      ascii ",\"gateway_received_at\":" := by decide
  rw [← hkey]
  simp [renderMember, receiptMember, Space.none, Tree.render]

/-- The text of an event whose payload is an object with a schema version and something else. -/
theorem backendEventJson_eq [Nlohmann.Library] {event : Event} {pre post : Space}
    {first : Member Tree} {rest : List (Member Tree)}
    (hpayload : renderElement ⟨pre, .object first rest, post⟩ = event.mqttPayload)
    (hkeys : ∀ x ∈ first :: rest, Nlohmann.dialect.string x.key = true)
    (hschema : hasSchema (first :: rest) = true) (hkept : kept (first :: rest) ≠ []) :
    backendEventJson event =
      if Utf8.valid event.gatewayReceivedAt then
        .ok (forwardedTree (first :: rest) event.gatewayReceivedAt).render
      else .error "invalid UTF-8 byte" := by
  -- Some member is kept, so the receipt follows a comma.
  obtain ⟨k, ks, hk⟩ := List.exists_cons_of_ne_nil hkept
  have hspace := (skipSpace_space pre (r := 0x7B :: (renderMember first ++ renderMembers rest ++
    0x7D :: post.text)) (by simp [isCSpace])).2
  have hpayload' : event.mqttPayload = pre.text ++ 0x7B :: (renderMember first ++
      renderMembers rest ++ 0x7D :: post.text) := by
    rw [← hpayload]
    simp [renderElement, Tree.render]
  -- The payload is long enough to give every member a turn of the loop.
  have hlen : rest.length < (renderMember first ++ renderMembers rest ++
      0x7D :: post.text).length + 1 := by
    have := length_renderMembers rest
    simp only [List.length_append, List.length_cons]
    omega
  have hcopied := copied_first [0x7B] false (first :: rest)
  rw [hk] at hcopied
  simp only [hschema, Bool.false_or] at hcopied
  have htree : (forwardedTree (first :: rest) event.gatewayReceivedAt).render =
      [0x7B] ++ renderMember k ++ renderMembers ks ++ ascii ",\"gateway_received_at\":" ++
        Literal.render (Nlohmann.Library.token event.gatewayReceivedAt) ++ [0x7D] := by
    simp only [forwardedTree, forwardedMembers, hk, List.cons_append, Tree.ofMembers, Tree.render,
      renderMembers_append, renderMembers, List.append_nil]
    rw [renderMember_receipt]
    simp
  rw [backendEventJson, hpayload', hspace]
  simp only [ne_eq, not_true_eq_false, if_false,
    copyMembers_render _ _ first rest post.text hkeys hlen, hcopied, bind, Except.bind]
  by_cases hvalid : Utf8.valid event.gatewayReceivedAt = true
  · simp [Nlohmann.dump, hvalid, htree, pure, Except.pure]
  · simp [Nlohmann.dump, hvalid, throw, throwThe, MonadExceptOf.throw]

/-! ## The Batch -/

/-- The literal `1`. -/
def oneLiteral : Number := ⟨false, ⟨[0x31], by simp, by decide⟩, by simp, none, none⟩

/-- A tree without space around it. -/
def tight (t : Tree) : Element Tree := ⟨Space.none, t, Space.none⟩

def tightMember (key : Bytes) (value : Tree) : Member Tree :=
  ⟨Space.none, Nlohmann.dumpLiteral key, Space.none, Space.none, value, Space.none⟩

/-- The request body for these events. -/
def batchTree (events : List Tree) : Tree :=
  .object (tightMember schemaKey (.number oneLiteral))
    [tightMember (ascii "events") (Tree.ofElements (events.map tight))]

theorem renderElements_tight (events : List Tree) :
    renderElements (events.map tight) = events.flatMap fun t => 0x2C :: t.render := by
  induction events with
  | nil => rfl
  | cons t rest ih => simp [renderElements, ih, tight, renderElement, Space.none]

theorem intercalate_render (events : List Tree) :
    0x5B :: ([0x2C].intercalate (events.map Tree.render) ++ [0x5D]) =
      (Tree.ofElements (events.map tight)).render := by
  cases events with
  | nil => simp [Tree.ofElements, Tree.render, Space.none, List.intercalate]
  | cons t rest =>
    have hjoin : [0x2C].intercalate ((t :: rest).map Tree.render) =
        t.render ++ rest.flatMap fun t => 0x2C :: t.render := by
      induction rest generalizing t with
      | nil => simp [List.intercalate]
      | cons u rest ih =>
        have := ih u
        simp only [List.map_cons, List.intercalate, List.intersperse, List.flatten_cons] at this ⊢
        simp [this]
    rw [hjoin]
    simp [Tree.ofElements, Tree.render, renderElements_tight, tight, renderElement, Space.none]

/-- The request body renders the tree of the forwarded events. -/
theorem batchJson_eq [Nlohmann.Library] {claimed : List Store.QueuedEvent} {events : List Tree}
    (h : List.Forall₂ (fun row t => backendEventJson row.event = .ok (Tree.render t))
      claimed events) :
    batchJson claimed = .ok (batchTree events).render := by
  have hmap : claimed.mapM (fun row => backendEventJson row.event) =
      .ok (events.map Tree.render) := by
    rw [mapM_eq_ok, List.forall₂_map_right_iff]
    exact h
  -- The literal text of the source is the first member and the start of the second.
  have hopen : ascii "\x7b\"schema_version\":1,\"events\":[" =
      0x7B :: (renderMember (tightMember schemaKey (.number oneLiteral)) ++ 0x2C ::
        (Literal.render (Nlohmann.dumpLiteral (ascii "events")) ++ [0x3A, 0x5B])) := by
    decide
  have hclose : ascii "]\x7d" = [0x5D, 0x7D] := rfl
  simp only [batchJson, hmap, bind, Except.bind, pure, Except.pure, batchTree, Tree.render,
    Except.ok.injEq, renderMembers, hopen, hclose]
  have hevents := intercalate_render events
  simp only [renderMember, tightMember, Space.none, List.nil_append, List.append_nil] at *
  rw [← hevents]
  simp

/-! ## Accepted Payloads -/

section Source

variable {event : Event} (src : EventSource event)

include src

theorem source_hasSchema : hasSchema src.members = true := by
  have hmem : schemaKey ∈ src.members.map Member.name :=
    src.names_perm.mem_iff.mpr (by decide)
  obtain ⟨m, hm, hname⟩ := List.mem_map.mp hmem
  exact List.any_eq_true.mpr ⟨m, hm, by simpa using hname⟩

theorem source_kept_ne_nil : kept src.members ≠ [] := by
  have hmem : ascii "value" ∈ src.members.map Member.name := src.names_perm.mem_iff.mpr (by decide)
  obtain ⟨m, hm, hname⟩ := List.mem_map.mp hmem
  have hne : m.name ≠ schemaKey := by rw [hname]; decide
  intro hnil
  have hkept : trimmed m ∈ kept src.members :=
    List.mem_map_of_mem (List.mem_filter.mpr ⟨hm, by simpa using hne⟩)
  simp [hnil] at hkept

/-- The forwarded text of an accepted event whose payload begins with no byte order mark. -/
theorem backendEventJson_source [Nlohmann.Library]
    (hbom : Nlohmann.skipBom event.mqttPayload = event.mqttPayload) :
    backendEventJson event =
      if Utf8.valid event.gatewayReceivedAt then
        .ok (forwardedTree src.members event.gatewayReceivedAt).render
      else .error "invalid UTF-8 byte" :=
  backendEventJson_eq (src.text.trans hbom) src.keys_accepted (source_hasSchema src)
    (source_kept_ne_nil src)

end Source

/-- The scanner does not know byte order marks. -/
theorem backendEventJson_bom [Nlohmann.Library] {event : Event}
    (hbom : Nlohmann.skipBom event.mqttPayload ≠ event.mqttPayload) :
    backendEventJson event = .error "stored event is not a JSON object" := by
  have hprefix : Nlohmann.byteOrderMark.isPrefixOf event.mqttPayload = true := by
    by_contra h
    exact hbom (by rw [Nlohmann.skipBom, if_neg h])
  obtain ⟨rest, hrest⟩ := List.isPrefixOf_iff_prefix.mp hprefix
  rw [backendEventJson, ← hrest]
  rfl

/-- Where forwarding returns, the text is that of the forwarded tree. -/
theorem backendEventJson_ok [Nlohmann.Library] {event : Event} (src : EventSource event)
    {out : Bytes} (h : backendEventJson event = .ok out) :
    Nlohmann.skipBom event.mqttPayload = event.mqttPayload ∧
      Utf8.valid event.gatewayReceivedAt = true ∧
      out = (forwardedTree src.members event.gatewayReceivedAt).render := by
  by_cases hbom : Nlohmann.skipBom event.mqttPayload = event.mqttPayload
  · rw [backendEventJson_source src hbom] at h
    split at h
    · next hvalid => exact ⟨hbom, hvalid, (Except.ok.inj h).symm⟩
    · simp at h
  · rw [backendEventJson_bom hbom] at h
    simp at h

/-! ## Preserved Content -/

/-- The spelling of a member's key and of its value. -/
def memberText (m : Member Tree) : Bytes × Bytes := (Literal.render m.key, m.value.render)

theorem memberText_trimmed (m : Member Tree) : memberText (trimmed m) = memberText m := rfl

theorem kept_memberText (ms : List (Member Tree)) :
    (kept ms).map memberText =
      (ms.filter fun m => decide (m.name ≠ schemaKey)).map memberText := by
  simp [kept, List.map_map, Function.comp_def, memberText_trimmed]

theorem members_ofMembers (ms : List (Member Tree)) : (Tree.ofMembers ms).members = ms := by
  cases ms <;> rfl

theorem name_tightMember (key : Bytes) (value : Tree) : (tightMember key value).name = key :=
  Nlohmann.dumpLiteral_decode key

theorem name_receiptMember [Nlohmann.Library] (receivedAt : Bytes) :
    (receiptMember receivedAt).name = receiptKey :=
  Nlohmann.dumpLiteral_decode receiptKey

/-- The forwarded names are those of the payload without the schema version, and the receipt's. -/
theorem forwarded_names [Nlohmann.Library] (ms : List (Member Tree)) (receivedAt : Bytes) :
    (forwardedMembers ms receivedAt).map Member.name =
      (ms.map Member.name).filter (fun n => decide (n ≠ schemaKey)) ++ [receiptKey] := by
  rw [forwardedMembers, List.map_append, List.map_singleton, name_receiptMember, kept,
    List.map_map, List.filter_map]
  rfl

theorem forwarded_names_nodup [Nlohmann.Library] {event : Event} (src : EventSource event)
    (receivedAt : Bytes) :
    ((forwardedMembers src.members receivedAt).map Member.name).Nodup := by
  rw [forwarded_names, List.nodup_append]
  refine ⟨src.names_nodup.filter _, List.nodup_singleton _, fun n hn k hk => ?_⟩
  have hn' : n ∈ eventFields := src.names_perm.mem_iff.mp (List.mem_of_mem_filter hn)
  obtain rfl := List.mem_singleton.mp hk
  rintro rfl
  exact absurd hn' (by decide)

/-- `forwarded` is `source` with its schema version left out and the receipt time put last: an
object with the same members in the same order, key and value spelled as they were. -/
structure Forwards (source forwarded : Tree) (receivedAt : Bytes) : Prop where
  object : ∃ first rest, forwarded = .object first rest
  names_nodup : (forwarded.members.map Member.name).Nodup
  members : ∃ receipt : Literal, Literal.decode receipt = receivedAt ∧
    forwarded.members.map memberText =
      (source.members.filter fun m => decide (m.name ≠ ascii "schema_version")).map memberText ++
        [(ascii "\"gateway_received_at\"", Literal.render receipt)]

theorem forwards_source [Nlohmann.Library] {event : Event} (src : EventSource event)
    (receivedAt : Bytes) :
    Forwards (.object src.first src.rest) (forwardedTree src.members receivedAt) receivedAt where
  object := by
    obtain ⟨k, ks, hk⟩ := List.exists_cons_of_ne_nil (source_kept_ne_nil src)
    exact ⟨k, ks ++ [receiptMember receivedAt], by simp [forwardedTree, forwardedMembers, hk,
      Tree.ofMembers]⟩
  names_nodup := by
    rw [forwardedTree, members_ofMembers]
    exact forwarded_names_nodup src receivedAt
  members := by
    refine ⟨Nlohmann.Library.token receivedAt, Nlohmann.Library.token_decode receivedAt, ?_⟩
    rw [forwardedTree, members_ofMembers, forwardedMembers, List.map_append, kept_memberText]
    rfl

/-- The text is UTF-8 and the rendering of a single RFC 8259 value, `t` up to the space around
it. -/
def Denotes (text : Bytes) (t : Tree) : Prop :=
  Utf8.valid text = true ∧ ∃ pre post, Json.parse Dialect.rfc8259 text = some ⟨pre, t, post⟩

theorem denotes_render {t : Tree} (h : t.accepted Dialect.utf8 = true) : Denotes t.render t := by
  refine ⟨t.valid_render h, Space.none, Space.none, ?_⟩
  exact parse_eq_some_iff.mpr ⟨by simp [renderElement, Space.none], t.accepted_rfc8259⟩

/-- The batch body is an object whose events decode to the forwarded events, in claim order. -/
def CarriesInOrder [Nlohmann.Library] (claimed : List Store.QueuedEvent) (body : Bytes) : Prop :=
  ∃ batch events, Denotes body batch ∧
    List.Forall₂ (fun (row : Store.QueuedEvent) t =>
      ∃ out, backendEventJson row.event = .ok out ∧ Denotes out t) claimed events ∧
    batch.value = .object [(ascii "schema_version", .number oneLiteral),
      (ascii "events", .array (events.map Tree.value))]

theorem batchTree_value (events : List Tree) :
    (batchTree events).value = .object [(schemaKey, .number oneLiteral),
      (ascii "events", .array (events.map Tree.value))] := by
  have hname (key : Bytes) : Literal.decode (Nlohmann.dumpLiteral key) = key :=
    Nlohmann.dumpLiteral_decode key
  simp [batchTree, tightMember, Tree.value, memberValues, hname, Function.comp_def, tight]

/-- Forwarding adds only string tokens a dialect takes. -/
theorem forwardedTree_accepted [Nlohmann.Library] {d : Dialect} {ms : List (Member Tree)}
    {receivedAt : Bytes} (hms : ∀ m ∈ ms, d.string m.key = true ∧ m.value.accepted d = true)
    (hkey : d.string (Nlohmann.dumpLiteral receiptKey) = true)
    (hvalue : d.string (Nlohmann.Library.token receivedAt) = true) :
    (forwardedTree ms receivedAt).accepted d = true := by
  have hall : (forwardedMembers ms receivedAt).all
      (fun m => d.string m.key && m.value.accepted d) = true := by
    rw [List.all_eq_true]
    intro m hm
    -- a member of the message, or the receipt time that is added
    rcases List.mem_append.mp hm with hkept | hreceipt
    · obtain ⟨m', hm', rfl⟩ := List.mem_map.mp hkept
      rw [Bool.and_eq_true]
      exact hms m' (List.mem_of_mem_filter hm')
    · obtain rfl := List.mem_singleton.mp hreceipt
      simp [receiptMember, hkey, Tree.accepted, hvalue]
  rw [forwardedTree]
  cases h : forwardedMembers ms receivedAt with
  | nil => rfl
  | cons k ks => rw [Tree.ofMembers, Tree.accepted_object, ← h, hall]

theorem batchTree_accepted {d : Dialect} {events : List Tree}
    (hevents : ∀ t ∈ events, t.accepted d = true) (hnumber : d.number oneLiteral = true)
    (hschema : d.string (Nlohmann.dumpLiteral schemaKey) = true)
    (hkey : d.string (Nlohmann.dumpLiteral (ascii "events")) = true) :
    (batchTree events).accepted d = true := by
  have hlist : (Tree.ofElements (events.map tight)).accepted d = true := by
    cases events with
    | nil => rfl
    | cons t rest =>
      rw [List.map_cons, Tree.ofElements, Tree.accepted_array, ← List.map_cons, List.all_eq_true]
      intro e he
      obtain ⟨t', ht', rfl⟩ := List.mem_map.mp he
      exact hevents t' ht'
  simp [batchTree, tightMember, Tree.accepted, membersAccepted, hnumber, hschema, hkey, hlist]

/-- The gateway's parser takes UTF-8 only. -/
theorem accepted_utf8 {t : Tree} (h : t.accepted Nlohmann.dialect = true) :
    t.accepted Dialect.utf8 = true :=
  t.accepted_mono (fun _ _ => rfl) (fun _ hl => (Bool.and_eq_true _ _ ▸ hl).1) h

theorem forwarded_utf8 [Nlohmann.Library] {event : Event} (src : EventSource event)
    {receivedAt : Bytes} (hvalid : Utf8.valid receivedAt = true) :
    (forwardedTree src.members receivedAt).accepted Dialect.utf8 = true := by
  refine forwardedTree_accepted (fun m hm => ⟨?_, accepted_utf8 (src.values_accepted m hm)⟩)
    (Nlohmann.dumpLiteral_valid (by decide))
    (Bool.and_eq_true _ _ ▸ Nlohmann.Library.token_string receivedAt hvalid).1
  exact (Bool.and_eq_true _ _ ▸ src.keys_accepted m hm).1

/-- Texts returned for accepted payloads are renderings. -/
theorem exists_events [Nlohmann.Library] {claimed : List Store.QueuedEvent} {outs : List Bytes}
    (hsources : ∀ row ∈ claimed, Nonempty (EventSource row.event))
    (h : List.Forall₂ (fun row out => backendEventJson row.event = .ok out) claimed outs) :
    ∃ events, List.Forall₂ (fun (row : Store.QueuedEvent) t =>
      backendEventJson row.event = .ok (Tree.render t) ∧ t.accepted Dialect.utf8 = true)
      claimed events ∧ ∀ t ∈ events, t.accepted Dialect.utf8 = true := by
  induction h with
  | nil => exact ⟨[], .nil, by simp⟩
  | @cons row out rows outs hrow _ ih =>
    obtain ⟨events, hevents, hutf8⟩ := ih fun x hx => hsources x (List.mem_cons_of_mem _ hx)
    obtain ⟨src⟩ := hsources row (List.mem_cons_self ..)
    obtain ⟨-, hvalid, rfl⟩ := backendEventJson_ok src hrow
    have hfirst := forwarded_utf8 src hvalid
    exact ⟨_ :: events, .cons ⟨hrow, hfirst⟩ hevents, List.forall_mem_cons.mpr ⟨hfirst, hutf8⟩⟩

theorem batchJson_carries [Nlohmann.Library] {claimed : List Store.QueuedEvent} {body : Bytes}
    (hsources : ∀ row ∈ claimed, Nonempty (EventSource row.event))
    (h : batchJson claimed = .ok body) : CarriesInOrder claimed body := by
  have hbody := h
  simp only [batchJson, except_bind_eq_ok, mapM_eq_ok] at h
  obtain ⟨outs, houts, -⟩ := h
  obtain ⟨events, hevents, hutf8⟩ := exists_events hsources houts
  obtain rfl :=
    Except.ok.inj ((batchJson_eq (hevents.imp fun _ _ hrow => hrow.1)).symm.trans hbody)
  refine ⟨batchTree events, events, denotes_render ?_, ?_, batchTree_value events⟩
  · exact batchTree_accepted hutf8 rfl (by decide) (by decide)
  · exact hevents.imp fun row t hrow => ⟨_, hrow.1, denotes_render hrow.2⟩

/-- A body is written exactly when every event of it is. -/
theorem batchJson_returns [Nlohmann.Library] {claimed : List Store.QueuedEvent} :
    (∃ body, batchJson claimed = .ok body) ↔
      ∀ row ∈ claimed, ∃ out, backendEventJson row.event = .ok out := by
  rw [← mapM_returns]
  constructor
  · rintro ⟨body, h⟩
    obtain ⟨outs, houts, -⟩ := except_bind_eq_ok.mp h
    exact ⟨outs, houts⟩
  · rintro ⟨outs, houts⟩
    exact ⟨_, except_bind_eq_ok.mpr ⟨outs, houts, rfl⟩⟩

/-- Forwarding preserves content: whatever `backendEventJson` returns for an accepted payload
carries its members over; `batchJson` returns when it does for every row, and what it returns
carries those events. -/
theorem forwarding_preserves_content [Nlohmann.Library] :
    (∀ topic payload receivedAt event out,
      Telemetry.parse topic payload receivedAt = .ok event →
      backendEventJson event = .ok out →
      ∃ source forwarded, Denotes payload source ∧ Denotes out forwarded ∧
        Forwards source forwarded receivedAt) ∧
    (∀ claimed, (∃ body, batchJson claimed = .ok body) ↔
      ∀ row ∈ claimed, ∃ out, backendEventJson row.event = .ok out) ∧
    (∀ claimed body,
      (∀ row ∈ claimed, ∃ topic payload receivedAt,
        Telemetry.parse topic payload receivedAt = .ok row.event) →
      batchJson claimed = .ok body → CarriesInOrder claimed body) := by
  refine ⟨?_, fun _ => batchJson_returns, ?_⟩
  · intro topic payload receivedAt event out hparse hout
    obtain ⟨src⟩ := exists_source hparse
    obtain ⟨hpayload, hreceipt, -⟩ := parse_eq_ok hparse
    obtain ⟨hbom, hvalid, rfl⟩ := backendEventJson_ok src hout
    -- the payload is kept as it came, and a text with a mark is never forwarded
    have htext := (src.text.trans hbom).trans hpayload
    have hutf8 := (Tree.object src.first src.rest).valid_render (accepted_utf8 src.accepted)
    refine ⟨.object src.first src.rest, forwardedTree src.members event.gatewayReceivedAt,
      ⟨htext ▸ valid_renderElement hutf8, src.pre, src.post, ?_⟩,
      denotes_render (forwarded_utf8 src hvalid), hreceipt ▸ forwards_source src _⟩
    exact parse_eq_some_iff.mpr ⟨htext, Tree.accepted_rfc8259 _⟩
  · intro claimed body hparse h
    refine batchJson_carries (fun row hrow => ?_) h
    obtain ⟨_, _, _, hrow⟩ := hparse row hrow
    exact exists_source hrow

def sampleForwarded : Bytes :=
  ascii "\x7b\"device_id\":\"d-1\" ,\"boot_id\":\"b\x7d],\\\"\"," ++
    ascii "\"sequence_number\":7,\"measured_at\":null,\"device_uptime_ms\":1," ++
    ascii "\"metric\":\"temperature\",\"value\":31.40000000000000000001," ++
    ascii "\"unit\":\"celsius\",\"quality\":\x7b\"reading\":\"valid\",\"clock\":\"unknown\"\x7d," ++
    ascii "\"gateway_received_at\":\"2026-01-01T00:00:00.000Z\"\x7d"

theorem backendEventJson_sample : backendEventJson sampleEvent = .ok sampleForwarded := by
  decide +kernel

/-- The same reading at the next number, its members spaced and in another order. -/
def spacedPayload : Bytes :=
  ascii "\x7b \"quality\" : \x7b\"clock\":\"unknown\", \"reading\":\"valid\"\x7d,\"device_id\":\"d-1\"," ++
    ascii "\"boot_id\":\"b\x7d],\\\"\",\"sequence_number\":8,\"measured_at\":null," ++
    ascii "\"device_uptime_ms\":2,\"metric\":\"temperature\",\"value\":-1e-3," ++
    ascii "\"unit\":\"celsius\", \"schema_version\" :1 \x7d"

def spacedEvent : Event := ⟨ascii "d-1", ascii "b\x7d],\"", 8, spacedPayload, sampleReceivedAt⟩

theorem parse_spaced : parse sampleTopic spacedPayload sampleReceivedAt = .ok spacedEvent := by
  decide +kernel

def spacedForwarded : Bytes :=
  ascii "\x7b\"quality\" : \x7b\"clock\":\"unknown\", \"reading\":\"valid\"\x7d,\"device_id\":\"d-1\"," ++
    ascii "\"boot_id\":\"b\x7d],\\\"\",\"sequence_number\":8,\"measured_at\":null," ++
    ascii "\"device_uptime_ms\":2,\"metric\":\"temperature\",\"value\":-1e-3," ++
    ascii "\"unit\":\"celsius\",\"gateway_received_at\":\"2026-01-01T00:00:00.000Z\"\x7d"

theorem backendEventJson_spaced : backendEventJson spacedEvent = .ok spacedForwarded := by
  decide +kernel

theorem forwarding_preserves_content_sample :
    (∃ source forwarded, Denotes samplePayload source ∧ Denotes sampleForwarded forwarded ∧
      Forwards source forwarded sampleReceivedAt) ∧
    ∃ body, batchJson [⟨sampleEvent, .inFlight, 1⟩, ⟨spacedEvent, .inFlight, 1⟩] = .ok body ∧
      body = ascii "\x7b\"schema_version\":1,\"events\":[" ++ sampleForwarded ++ [0x2C] ++
        spacedForwarded ++ ascii "]\x7d" ∧
      CarriesInOrder [⟨sampleEvent, .inFlight, 1⟩, ⟨spacedEvent, .inFlight, 1⟩] body := by
  obtain ⟨hevents, hreturns, hbodies⟩ := forwarding_preserves_content
  refine ⟨hevents _ _ _ _ _ parse_sample backendEventJson_sample, ?_⟩
  obtain ⟨body, hbody⟩ := (hreturns [⟨sampleEvent, .inFlight, 1⟩, ⟨spacedEvent, .inFlight, 1⟩]).mpr
    (List.forall_mem_cons.mpr ⟨⟨_, backendEventJson_sample⟩,
      List.forall_mem_singleton.mpr ⟨_, backendEventJson_spaced⟩⟩)
  refine ⟨body, hbody, ?_, hbodies _ _ (List.forall_mem_cons.mpr ⟨⟨_, _, _, parse_sample⟩,
    List.forall_mem_singleton.mpr ⟨_, _, _, parse_spaced⟩⟩) hbody⟩
  have houts : [(⟨sampleEvent, .inFlight, 1⟩ : Store.QueuedEvent),
      ⟨spacedEvent, .inFlight, 1⟩].mapM (fun row => backendEventJson row.event) =
        .ok [sampleForwarded, spacedForwarded] :=
    mapM_eq_ok.mpr (.cons backendEventJson_sample (.cons backendEventJson_spaced .nil))
  rw [batchJson, houts] at hbody
  rw [← Except.ok.inj hbody]
  simp [List.intercalate]

end EquipmentMonitoring.Forwarder
