import EquipmentMonitoring.Foundations.Numerals
import EquipmentMonitoring.Gateway.Worker

/-!
# Delivery Keeps the Order of Receipt

A batch is read in the order of four columns, the receipt time first. Receipt times are texts of
one width, so that their order as texts is their order in time, and a later number of the same
boot comes later also when two receipts fall into one millisecond.

## Key Results

- `utcNow_lt`: receipt times sort like the times
- `pendingRows_sorted`: the query returns what it says
- `Before.step`: one turn keeps an event ahead of a later one
- `delivery_order`: no batch overtakes an event that is still queued
-/

namespace EquipmentMonitoring.Forwarder

open EquipmentMonitoring.Store EquipmentMonitoring.Telemetry

/-! ## Receipt Times (`utc_now` in `log.cpp`) -/

/-- The fields `gmtime_r` fills in, and the milliseconds. -/
structure UtcTime where
  year : Fin 10000
  month : Fin 13
  day : Fin 32
  hour : Fin 24
  minute : Fin 60
  second : Fin 61
  millisecond : Fin 1000

/-- `%Y-%m-%dT%H:%M:%S`, a point, three digits, and `Z`. -/
def utcNow (t : UtcTime) : Bytes :=
  numeral 10 4 t.year ++ 0x2D :: (numeral 10 2 t.month ++ 0x2D :: (numeral 10 2 t.day ++ 0x54 ::
    (numeral 10 2 t.hour ++ 0x3A :: (numeral 10 2 t.minute ++ 0x3A :: (numeral 10 2 t.second ++
      0x2E :: (numeral 10 3 t.millisecond ++ [0x5A]))))))

/-- The time is earlier: its first field that differs is the smaller one. -/
def UtcTime.lt (a b : UtcTime) : Prop :=
  a.year < b.year ∨ (a.year = b.year ∧ (a.month < b.month ∨ (a.month = b.month ∧
    (a.day < b.day ∨ (a.day = b.day ∧ (a.hour < b.hour ∨ (a.hour = b.hour ∧
      (a.minute < b.minute ∨ (a.minute = b.minute ∧ (a.second < b.second ∨ (a.second = b.second ∧
        a.millisecond < b.millisecond)))))))))))

/-- Receipt times sort like the times. -/
theorem utcNow_lt (a b : UtcTime) : utcNow a < utcNow b ↔ a.lt b := by
  have hfield {n : Nat} (width : Nat) (x y : Fin n) (hn : n ≤ 10 ^ width) (c : UInt8)
      (s t : Bytes) : numeral 10 width x ++ c :: s < numeral 10 width y ++ c :: t ↔
        x < y ∨ (x = y ∧ s < t) := by
    rw [numeral_append_lt (by decide) (x.isLt.trans_le hn) (y.isLt.trans_le hn),
      List.cons_lt_cons_iff, Fin.val_inj]
    simp
  rw [utcNow, utcNow, hfield 4 _ _ (by decide), hfield 2 _ _ (by decide), hfield 2 _ _ (by decide),
    hfield 2 _ _ (by decide), hfield 2 _ _ (by decide), hfield 2 _ _ (by decide),
    hfield 3 _ _ (by decide)]
  simp [UtcTime.lt]

/-! ## Comparing Rows -/

theorem textLe_iff (s t : Bytes) : textLe s t = true ↔ s ≤ t := by
  induction s generalizing t with
  | nil => simp [textLe]
  | cons a s ih =>
    cases t with
    | nil => simp [textLe]
    | cons b t =>
      rw [List.cons_le_cons_iff, ← ih t]
      simp [textLe]

/-- Compare by one key, and by the rest where the keys agree. -/
def byKey {ρ : Type} (key : ρ → Bytes) (rest : ρ → ρ → Bool) (a b : ρ) : Bool :=
  if key a ≠ key b then textLe (key a) (key b) else rest a b

section ByKey

variable {ρ : Type} {key : ρ → Bytes} {rest : ρ → ρ → Bool}

theorem byKey_total (hrest : ∀ a b, rest a b = true ∨ rest b a = true) (a b : ρ) :
    byKey key rest a b = true ∨ byKey key rest b a = true := by
  unfold byKey
  by_cases h : key a = key b
  · simpa [h] using hrest a b
  · simpa [h, Ne.symm h, textLe_iff] using List.le_total (key a) (key b)

theorem byKey_trans (hrest : ∀ a b c, rest a b = true → rest b c = true → rest a c = true)
    (a b c : ρ) (hab : byKey key rest a b = true) (hbc : byKey key rest b c = true) :
    byKey key rest a c = true := by
  unfold byKey at *
  by_cases h₁ : key a = key b
  · by_cases h₂ : key b = key c
    · simp only [h₁, h₂, ne_eq, not_true_eq_false, if_false] at *
      exact hrest a b c hab hbc
    · simpa [h₁, h₂] using hbc
  · by_cases h₂ : key b = key c
    · simpa [h₁, ← h₂] using hab
    · simp only [ne_eq, h₁, h₂, not_false_eq_true, if_true, textLe_iff] at hab hbc
      have hle := List.le_trans hab hbc
      -- two different keys cannot come round to one again
      have hne : key a ≠ key c := by
        intro heq
        rw [← heq] at hbc
        exact h₁ (List.le_antisymm hab hbc)
      simpa [hne, textLe_iff] using hle

end ByKey

/-- The four columns of the query. -/
theorem pendingOrder_eq : pendingOrder =
    byKey (fun r => r.event.gatewayReceivedAt) (byKey (fun r => r.event.deviceId)
      (byKey (fun r => r.event.bootId) fun a b =>
        decide (a.event.sequenceNumber ≤ b.event.sequenceNumber))) := rfl

theorem pendingOrder_total (a b : QueuedEvent) :
    pendingOrder a b = true ∨ pendingOrder b a = true := by
  rw [pendingOrder_eq]
  refine byKey_total (byKey_total (byKey_total fun a b => ?_)) a b
  simpa using Int.le_total a.event.sequenceNumber b.event.sequenceNumber

theorem pendingOrder_trans (a b c : QueuedEvent) (hab : pendingOrder a b = true)
    (hbc : pendingOrder b c = true) : pendingOrder a c = true := by
  rw [pendingOrder_eq] at *
  refine byKey_trans (byKey_trans (byKey_trans fun a b c hab hbc => ?_)) a b c hab hbc
  simp only [decide_eq_true_eq] at *
  omega

/-- The query returns what it says. -/
theorem pendingRows_sorted (t : Tables) :
    (pendingRows t).Pairwise fun a b => pendingOrder a b = true := by
  have : Std.Total fun a b : QueuedEvent => pendingOrder a b = true := ⟨pendingOrder_total⟩
  have : IsTrans QueuedEvent fun a b => pendingOrder a b = true := ⟨pendingOrder_trans⟩
  exact List.pairwise_insertionSort _ _

/-! ## Precedence in a Sorted List -/

section Sorted

variable {α : Type} {le : α → α → Prop} {l : List α} {a b : α}

/-- Two different elements stand one before the other. -/
theorem sublist_or_sublist (ha : a ∈ l) (hb : b ∈ l) (hne : a ≠ b) :
    [a, b].Sublist l ∨ [b, a].Sublist l := by
  induction l with
  | nil => simp at ha
  | cons x rest ih =>
    rcases List.mem_cons.mp ha with rfl | ha'
    · have hb' := (List.mem_cons.mp hb).resolve_left (Ne.symm hne)
      exact .inl ((List.singleton_sublist.mpr hb').cons_cons _)
    · rcases List.mem_cons.mp hb with rfl | hb'
      · exact .inr ((List.singleton_sublist.mpr ha').cons_cons _)
      · exact (ih ha' hb').imp (List.Sublist.cons _) (List.Sublist.cons _)

/-- What a prefix of a sorted list holds, it holds behind everything smaller. -/
theorem sublist_take (hl : l.Pairwise le) {n : Nat} (ha : a ∈ l) (hb : b ∈ l.take n) (hne : a ≠ b)
    (hnot : ¬le b a) : [a, b].Sublist (l.take n) := by
  have hsplit := List.take_append_drop n l
  rw [← hsplit, List.pairwise_append] at hl
  have hmem : a ∈ l.take n := by
    rw [← hsplit, List.mem_append] at ha
    refine ha.resolve_right fun hdrop => ?_
    exact hnot (hl.2.2 b hb a hdrop)
  refine (sublist_or_sublist hmem hb hne).resolve_right fun hback => ?_
  have hpair := hl.1.sublist hback
  simp only [List.pairwise_cons, List.mem_singleton, forall_eq] at hpair
  exact hnot hpair.1

end Sorted

/-! ## One Event ahead of Another -/

/-- Whatever the batch, a row that was received later, of the same boot and with a larger number,
does not come first. -/
theorem not_pendingOrder {ra rb : QueuedEvent} (hdevice : ra.event.deviceId = rb.event.deviceId)
    (hboot : ra.event.bootId = rb.event.bootId)
    (hsequence : ra.event.sequenceNumber < rb.event.sequenceNumber)
    (hreceipt : ra.event.gatewayReceivedAt ≤ rb.event.gatewayReceivedAt) :
    ¬pendingOrder rb ra = true := by
  unfold pendingOrder
  by_cases h : ra.event.gatewayReceivedAt = rb.event.gatewayReceivedAt
  · simp only [h, hdevice, hboot, ne_eq, not_true_eq_false, if_false, decide_eq_true_eq]
    omega
  · simp only [Ne.symm h, ne_eq, not_false_eq_true, if_true, textLe_iff]
    exact fun hback => h (List.le_antisymm hreceipt hback)

/-- The event `a` is queued, and if the worker holds `b`, it holds `a` before it. -/
structure Before (a b : Event) (p : Process) : Prop where
  queued : ∃ r ∈ p.tables.intakeEvents, r.event = a
  ahead : ∀ rb ∈ p.phase.rows, rb.event = b → ∃ ra, ra.event = a ∧ [ra, rb].Sublist p.phase.rows

/-- Where a queued row comes from: a row with the same event, or an insertion. -/
def Origin (turn : Turn) (t t' : Tables) : Prop :=
  ∀ r' ∈ t'.intakeEvents, (∃ r ∈ t.intakeEvents, r.event = r'.event) ∨
    turn.action = .insert r'.event ∧ ¬Recorded t (identity r'.event)

theorem origin_refl (turn : Turn) (t : Tables) : Origin turn t t :=
  fun r' hr' => .inl ⟨r', hr', rfl⟩

theorem origin_of_continues {turn : Turn} {t t' : Tables} (h : Continues [] t t') :
    Origin turn t t' := by
  intro r' hr'
  rcases h r' hr' with ⟨r, hr, hages⟩ | hnone
  · exact .inl ⟨r, hr, by cases hages <;> rfl⟩
  · simp at hnone

theorem settleAll_event (now : Bytes) (settled : List (QueuedEvent × DeliveryDecision)) (t : Tables) :
    ∀ r' ∈ (settleAll now settled t).intakeEvents, ∃ r ∈ t.intakeEvents, r.event = r'.event := by
  induction settled generalizing t with
  | nil => exact fun r' hr' => ⟨r', hr', rfl⟩
  | cons s rest ih =>
    intro r' hr'
    obtain ⟨r, hr, hevent⟩ := ih (settleOne now s t) r' hr'
    rcases continues_settleOne now s t r hr with ⟨r₀, hr₀, hages⟩ | hnone
    · exact ⟨r₀, hr₀, by rw [← hevent]; cases hages <;> rfl⟩
    · simp at hnone

theorem origin_applyDecisions (turn : Turn) (now : Bytes) (rows : List QueuedEvent)
    (decisions : List DeliveryDecision) (t : Tables) (faults : List Bool) :
    Origin turn t (applyDecisions now rows decisions ⟨t, faults⟩).2.data := by
  rcases applyDecisions_spec now rows decisions ⟨t, faults⟩ with ⟨_, -, hdata⟩ | ⟨_, -, -, hdata⟩
  · rw [hdata]
    exact origin_refl turn t
  · rw [hdata]
    exact fun r' hr' => .inl (settleAll_event now _ t r' hr')

theorem origin_insert (event : Event) (t : Tables) (faults : List Bool) :
    Origin ⟨.insert event, faults⟩ t (Store.insert event ⟨t, faults⟩).2.data := by
  rcases insert_spec event ⟨t, faults⟩ with ⟨_, -, hdata⟩ | ⟨result, -, heffect⟩
  · rw [hdata]
    exact origin_refl _ t
  · generalize (Store.insert event ⟨t, faults⟩).2.data = t' at heffect ⊢
    cases heffect with
    | inserted _ h =>
      intro r' hr'
      rw [Table.mem_def, h.intake, List.mem_append, List.mem_singleton] at hr'
      rcases hr' with hold | rfl
      · exact .inl ⟨r', hold, rfl⟩
      · exact .inr ⟨rfl, h.fresh⟩
    | known => exact origin_refl _ t

theorem origin_claim (turn : Turn) (t : Tables) (faults : List Bool) :
    Origin turn t (claimPending maxBatchSize ⟨t, faults⟩).2.data := by
  rcases claimPending_claims ⟨t, faults⟩ with ⟨_, -, hdata⟩ | ⟨_, -, -, hdata, -⟩
  · rw [hdata]
    exact origin_refl turn t
  · rw [hdata]
    exact origin_of_continues (continues_claimAll fun _ hr => mem_batch hr)

/-- No turn changes the event of a row. -/
theorem step_origin [Nlohmann.Library] (p : Process) (turn : Turn) :
    Origin turn p.tables (p.step turn).tables := by
  obtain ⟨t, running, phase⟩ := p
  obtain ⟨action, faults⟩ := turn
  -- A restart recovers the rows that are there and adds none.
  have hrestart : Origin ⟨.restart, faults⟩ t (openStore ⟨t, faults⟩).2.data := by
    rcases openStore_spec ⟨t, faults⟩ with ⟨_, -, hdata⟩ | ⟨_, -, hdata⟩
    · rw [hdata]
      exact origin_refl _ t
    · rw [hdata]
      exact origin_of_continues (continues_update rfl)
  cases running with
  | false =>
    cases action with
    | restart => exact hrestart
    | _ => exact origin_refl _ t
  | true =>
    cases action with
    | restart => exact hrestart
    | insert event => exact origin_insert event t faults
    | claim =>
      cases phase with
      | idle =>
        exact origin_claim ⟨.claim, faults⟩ t faults
      | _ => exact origin_refl _ t
    | exchange postBatch => cases phase <;> exact origin_refl _ t
    | settle now =>
      cases phase with
      | releasing rows => exact origin_applyDecisions _ now rows _ t faults
      | applying rows decisions =>
        have h := origin_applyDecisions ⟨.settle now, faults⟩ now rows decisions t faults
        simp only [Process.step]
        split <;> next hrun => rwa [hrun] at h
      | _ => exact origin_refl _ t

/-- What the worker holds after a turn. -/
theorem step_rows [Nlohmann.Library] (p : Process) (turn : Turn) :
    (p.step turn).phase.rows = p.phase.rows ∨ (p.step turn).phase.rows = [] ∨
      p.running = true ∧ p.phase = .idle ∧ (p.step turn).phase.rows = claimedBatch p.tables := by
  obtain ⟨t, running, phase⟩ := p
  obtain ⟨action, faults⟩ := turn
  cases running with
  | false =>
    cases action with
    | restart => exact .inr (.inl rfl)
    | _ => exact .inl rfl
  | true =>
    cases action with
    | restart => exact .inr (.inl rfl)
    | insert event => exact .inl rfl
    | claim =>
      cases phase with
      | idle =>
        -- the claim either fails and takes nothing, or takes the batch the tables offer
        rcases claimPending_claims ⟨t, faults⟩ with ⟨_, herr, -⟩ | ⟨rows, hok, rfl, -⟩
        · refine .inr (.inl ?_)
          simp only [Process.step, herr, afterClaim, Phase.rows]
        · refine .inr (.inr ⟨rfl, rfl, ?_⟩)
          simp only [Process.step, hok, afterClaim]
          split <;> simp_all [Phase.rows]
      | _ => exact .inl rfl
    | exchange postBatch =>
      cases phase with
      | claimed rows => exact .inl (afterExchange_rows rows postBatch)
      | _ => exact .inl rfl
    | settle now =>
      cases phase with
      | releasing rows => exact .inr (.inl rfl)
      | applying rows decisions =>
        simp only [Process.step]
        split
        · exact .inr (.inl rfl)
        · exact .inl rfl
      | _ => exact .inl rfl

/-- `b` was received after `a`, from the same boot and with a larger number. -/
structure Follows (a b : Event) : Prop where
  device : a.deviceId = b.deviceId
  boot : a.bootId = b.bootId
  sequence : a.sequenceNumber < b.sequenceNumber
  receipt : a.gatewayReceivedAt ≤ b.gatewayReceivedAt

variable {a b : Event} {p : Process} {turn : Turn}

/-- A row that stays queued keeps its event. -/
theorem queued_step [Nlohmann.Library] (hqueued : ∃ r ∈ p.tables.intakeEvents, r.event = a)
    (hstays : Queued (identity a) (p.step turn).tables) :
    ∃ r ∈ (p.step turn).tables.intakeEvents, r.event = a := by
  obtain ⟨r, hr, rfl⟩ := hqueued
  obtain ⟨r', hr', hid⟩ := hstays
  rcases step_origin p turn r' hr' with ⟨r₀, hr₀, hevent⟩ | ⟨-, hfresh⟩
  · have hrow : r₀ = r := Table.eq_of_key_eq hr₀ hr (by rw [hevent, hid])
    exact ⟨r', hr', by rw [← hevent, hrow]⟩
  · exact absurd (.inl ⟨r, hr, hid.symm⟩) hfresh

/-- A claim that takes `b` takes `a` before it. -/
theorem claimedBatch_ahead {t : Tables} (hfollows : Follows a b)
    (hqueued : ∃ r ∈ t.intakeEvents, r.event = a) (hpending : ∀ r ∈ t.intakeEvents, r.state = .pending) :
    ∀ rb ∈ claimedBatch t, rb.event = b →
      ∃ ra, ra.event = a ∧ [ra, rb].Sublist (claimedBatch t) := by
  intro rb hrb hevent
  obtain ⟨rb, hmem, rfl⟩ := List.mem_map.mp hrb
  obtain ⟨ra, hra, rfl⟩ := hqueued
  obtain rfl : rb.event = b := hevent
  refine ⟨claimRow ra, rfl, ?_⟩
  have hrow : ra ∈ pendingRows t := mem_pendingRows.mpr ⟨hra, hpending ra hra⟩
  have hne : ra ≠ rb := by
    rintro rfl
    exact absurd hfollows.sequence (lt_irrefl _)
  have hnot := not_pendingOrder hfollows.device hfollows.boot hfollows.sequence hfollows.receipt
  exact (sublist_take (pendingRows_sorted t) hrow hmem hne hnot).map claimRow

/-- One turn. -/
theorem Before.step [Nlohmann.Library] (h : Before a b p) (hfollows : Follows a b)
    (hcoherent : p.running = true → Coherent p)
    (hstays : Queued (identity a) (p.step turn).tables) : Before a b (p.step turn) where
  queued := queued_step h.queued hstays
  ahead := by
    rcases step_rows p turn with hrows | hrows | ⟨hrunning, hidle, hrows⟩
    · rw [hrows]
      exact h.ahead
    · rw [hrows]
      simp
    · rw [hrows]
      exact claimedBatch_ahead hfollows h.queued ((hcoherent hrunning).pending hidle)

/-! ## Runs without Faults -/

/-- No statement of the run fails. -/
def Faultless (turns : List Turn) : Prop := ∀ turn ∈ turns, turn.faults = []

theorem sparesRelease_of_faultless (p : Process) (h : turn.faults = []) : SparesRelease p turn := by
  unfold SparesRelease
  split
  · rw [h]
    simp [Sql.spares]
  · trivial

section Run

variable [Nlohmann.Library]

theorem run_append (p : Process) (turns turns' : List Turn) :
    p.run (turns ++ turns') = (p.run turns).run turns' :=
  List.foldl_append ..

theorem run_cons (p : Process) (turn : Turn) (turns : List Turn) :
    p.run (turn :: turns) = (p.step turn).run turns := rfl

theorem run_coherent {turns : List Turn} (h : p.running = true → Coherent p)
    (hturns : Faultless turns) : (p.run turns).running = true → Coherent (p.run turns) := by
  induction turns generalizing p with
  | nil => exact h
  | cons turn rest ih =>
    have hspares := sparesRelease_of_faultless p (hturns turn (List.mem_cons_self ..))
    exact ih (step_coherent h hspares) fun turn' hturn' => hturns turn' (List.mem_cons_of_mem _ hturn')

/-- The identity is queued from the start of the run to its end. -/
def StaysQueued (id : Identity) (p : Process) (turns : List Turn) : Prop :=
  ∀ part, part <+: turns → Queued id (p.run part).tables

theorem StaysQueued.tail {id : Identity} {rest : List Turn} (h : StaysQueued id p (turn :: rest)) :
    StaysQueued id (p.step turn) rest := by
  intro part hpart
  exact h (turn :: part) (List.cons_prefix_cons.mpr ⟨rfl, hpart⟩)

theorem StaysQueued.step {id : Identity} {rest : List Turn} (h : StaysQueued id p (turn :: rest)) :
    Queued id (p.step turn).tables :=
  h.tail [] (List.nil_prefix)

theorem run_queued {turns : List Turn} (h : ∃ r ∈ p.tables.intakeEvents, r.event = a)
    (hstays : StaysQueued (identity a) p turns) :
    ∃ r ∈ (p.run turns).tables.intakeEvents, r.event = a := by
  induction turns generalizing p with
  | nil => exact h
  | cons turn rest ih => exact ih (queued_step h hstays.step) hstays.tail

theorem run_before {turns : List Turn} (h : Before a b p) (hfollows : Follows a b)
    (hcoherent : p.running = true → Coherent p) (hturns : Faultless turns)
    (hstays : StaysQueued (identity a) p turns) : Before a b (p.run turns) := by
  induction turns generalizing p with
  | nil => exact h
  | cons turn rest ih =>
    have hspares := sparesRelease_of_faultless p (hturns turn (List.mem_cons_self ..))
    exact ih (h.step hfollows hcoherent hstays.step) (step_coherent hcoherent hspares)
      (fun turn' hturn' => hturns turn' (List.mem_cons_of_mem _ hturn')) hstays.tail

end Run

/-! ## Insertions -/

/-- The insertion that comes next queues its event. -/
def Queues (p : Process) (e : Event) : Prop :=
  p.running = true ∧ (Store.insert e ⟨p.tables, []⟩).1 = .ok .inserted

theorem Queues.inserted [Nlohmann.Library] {e : Event} (h : Queues p e) :
    Inserted e p.tables (p.step ⟨.insert e, []⟩).tables := by
  obtain ⟨t, running, phase⟩ := p
  obtain ⟨hrunning, hok⟩ := h
  obtain rfl : running = true := hrunning
  rcases insert_spec e ⟨t, []⟩ with ⟨_, herr, -⟩ | ⟨result, hok', heffect⟩
  · simp [herr] at hok
  · rw [hok'] at hok
    obtain rfl : result = .inserted := Except.ok.inj hok
    have htables : (Process.step ⟨t, true, phase⟩ ⟨.insert e, []⟩).tables =
        (Store.insert e ⟨t, []⟩).2.data := rfl
    rw [htables]
    generalize (Store.insert e ⟨t, []⟩).2.data = t' at heffect ⊢
    -- the call reported a new row, so it had the effect of one
    generalize hresult : InsertResult.inserted = result at heffect
    cases heffect with
    | inserted _ h => exact h
    | known recorded =>
      unfold compareContent at hresult
      split at hresult <;> simp at hresult

/-- Nothing the worker holds has the identity of an event that is queued just now. -/
theorem before_of_queues [Nlohmann.Library] (hfresh : Queues p b) (hcoherent : Coherent p)
    (hqueued : ∃ r ∈ p.tables.intakeEvents, r.event = a)
    (hstays : Queued (identity a) (p.step ⟨.insert b, []⟩).tables) :
    Before a b (p.step ⟨.insert b, []⟩) where
  queued := queued_step hqueued hstays
  ahead := by
    have hrows : (p.step ⟨.insert b, []⟩).phase.rows = p.phase.rows := by
      obtain ⟨t, running, phase⟩ := p
      obtain rfl : running = true := hfresh.1
      rfl
    rw [hrows]
    rintro rb hrb rfl
    exact absurd (.inl ⟨rb, ((hcoherent.inFlight rb).mpr hrb).1, rfl⟩) hfresh.inserted.fresh

/-- The receipt times of the run, in order. -/
def receipts (turns : List Turn) : List Bytes :=
  turns.filterMap fun turn =>
    match turn.action with
    | .insert event => some event.gatewayReceivedAt
    | _ => none

/-- They are readings of a clock that never goes back. -/
def ClockForward (turns : List Turn) : Prop :=
  ∃ times : List UtcTime, receipts turns = times.map utcNow ∧ times.Pairwise fun s t => ¬t.lt s

theorem receipts_le {past between future : List Turn} {faults faults' : List Bool}
    (h : ClockForward (past ++ ⟨.insert a, faults⟩ ::
      (between ++ ⟨.insert b, faults'⟩ :: future))) :
    a.gatewayReceivedAt ≤ b.gatewayReceivedAt := by
  obtain ⟨times, hreceipts, htimes⟩ := h
  have hsorted : (times.map utcNow).Pairwise fun s t => s ≤ t := by
    rw [List.pairwise_map]
    exact htimes.imp fun hle => mt (utcNow_lt _ _).mp hle
  rw [← hreceipts] at hsorted
  simp only [receipts, List.filterMap_append, List.filterMap_cons, List.pairwise_append,
    List.pairwise_cons] at hsorted
  exact hsorted.2.1.1 _ (List.mem_append_right _ (List.mem_cons_self ..))

/-! ## The Order of Delivery -/

/-- In a run without faults whose receipt times never go back, with any exchanges and restarts: `a`
is queued, and later `b`, of the same boot and with a larger number. Then a batch with `b` that is
about to be sent has `a` before it, or `a` has left the queue since. -/
theorem delivery_order [Nlohmann.Library] (t : Tables) (past between future : List Turn)
    (a b : Event)
    (hfaultless : Faultless (past ++ ⟨.insert a, []⟩ :: (between ++ ⟨.insert b, []⟩ :: future)))
    (hclock : ClockForward (past ++ ⟨.insert a, []⟩ :: (between ++ ⟨.insert b, []⟩ :: future)))
    (hdevice : a.deviceId = b.deviceId) (hboot : a.bootId = b.bootId)
    (hsequence : a.sequenceNumber < b.sequenceNumber) (ha : Queues ((Process.start t).run past) a)
    (hb : Queues ((Process.start t).run (past ++ ⟨.insert a, []⟩ :: between)) b)
    (rows : List QueuedEvent)
    (hclaimed : ((Process.start t).run
      (past ++ ⟨.insert a, []⟩ :: (between ++ ⟨.insert b, []⟩ :: future))).phase = .claimed rows)
    (rb : QueuedEvent) (hrb : rb ∈ rows) (hevent : rb.event = b) :
    (∃ ra, ra.event = a ∧ [ra, rb].Sublist rows) ∨
      ∃ part, part <+: between ++ ⟨.insert b, []⟩ :: future ∧
        ¬Queued (identity a) ((Process.start t).run (past ++ ⟨.insert a, []⟩ :: part)).tables := by
  by_cases hleft : ∃ part, part <+: between ++ ⟨.insert b, []⟩ :: future ∧
      ¬Queued (identity a) ((Process.start t).run (past ++ ⟨.insert a, []⟩ :: part)).tables
  · exact .inr hleft
  · left
    simp only [not_exists, not_and, not_not, run_append, run_cons] at hleft
    simp only [run_append, run_cons] at hb hclaimed
    generalize hp₀ : (Process.start t).run past = p₀ at ha hb hclaimed hleft
    have hfollows : Follows a b := ⟨hdevice, hboot, hsequence, receipts_le hclock⟩
    have hstart : (Process.start t).running = true → Coherent (Process.start t) :=
      fun hrunning => absurd hrunning Bool.false_ne_true
    rw [Faultless, List.forall_mem_append, List.forall_mem_cons, List.forall_mem_append,
      List.forall_mem_cons] at hfaultless
    obtain ⟨hpast, -, hbetween, -, hfuture⟩ := hfaultless
    have hcoherent₁ := step_coherent (hp₀ ▸ run_coherent hstart hpast)
      (@sparesRelease_of_faultless ⟨.insert a, []⟩ p₀ rfl)
    have hcoherent₂ := run_coherent hcoherent₁ hbetween
    have hcoherent₃ := step_coherent hcoherent₂
      (@sparesRelease_of_faultless ⟨.insert b, []⟩ _ rfl)
    -- `a` is queued until `b` is, and from then on it stays ahead
    have hqueued : ∃ r ∈ (p₀.step ⟨.insert a, []⟩).tables.intakeEvents, r.event = a := by
      refine ⟨⟨a, .pending, 0⟩, ?_, rfl⟩
      rw [Table.mem_def, ha.inserted.intake]
      simp
    have hbetween' : StaysQueued (identity a) (p₀.step ⟨.insert a, []⟩) between :=
      fun part hpart => hleft part (hpart.trans (List.prefix_append ..))
    have hrest (part : List Turn) (hpart : part <+: future) :
        Queued (identity a) ((((p₀.step ⟨.insert a, []⟩).run between).step ⟨.insert b, []⟩).run
          part).tables := by
      have hprefix : between ++ ⟨.insert b, []⟩ :: part <+: between ++ ⟨.insert b, []⟩ :: future := by
        rw [List.prefix_append_right_inj, List.cons_prefix_cons]
        exact ⟨rfl, hpart⟩
      simpa only [run_append, run_cons] using hleft _ hprefix
    have hbefore := before_of_queues hb (hcoherent₂ hb.1) (run_queued hqueued hbetween')
      (hrest [] List.nil_prefix)
    have hend := run_before hbefore hfollows hcoherent₃ hfuture hrest
    have hahead := hend.ahead
    rw [hclaimed] at hahead
    exact hahead rb hrb hevent

theorem zero_lt_minutes : 0 < 60 := by decide

def noon : UtcTime := ⟨2026, 1, 1, 12, ⟨0, zero_lt_minutes⟩, 0, 0⟩

/-- An event of one device and boot, received at noon. -/
def receivedAtNoon (sequenceNumber : Int) : Event :=
  ⟨ascii "d1", ascii "b1", sequenceNumber, ascii "payload", utcNow noon⟩

/-- The batch after the second event: the first, at its second attempt, comes first. -/
def bothClaimed : List QueuedEvent :=
  [⟨receivedAtNoon 7, .inFlight, 2⟩, ⟨receivedAtNoon 8, .inFlight, 1⟩]

def firstRound : List Turn :=
  [⟨.claim, []⟩, ⟨.exchange fun _ => .error "connect", []⟩, ⟨.settle [], []⟩]

/-- Two events within a millisecond; the first is claimed and released before the second comes. -/
theorem delivery_order_sample :
    (∃ ra : QueuedEvent, ra.event = receivedAtNoon 7 ∧
        [ra, ⟨receivedAtNoon 8, .inFlight, 1⟩].Sublist bothClaimed) ∨
      ∃ part, part <+: firstRound ++ ⟨.insert (receivedAtNoon 8), []⟩ :: [⟨.claim, []⟩] ∧
        ¬Queued (identity (receivedAtNoon 7)) ((Process.start Tables.empty).run
          ([⟨.restart, []⟩] ++ ⟨.insert (receivedAtNoon 7), []⟩ :: part)).tables := by
  have hclock : ClockForward ([⟨.restart, []⟩] ++ ⟨.insert (receivedAtNoon 7), []⟩ ::
      (firstRound ++ ⟨.insert (receivedAtNoon 8), []⟩ :: [⟨.claim, []⟩])) :=
    ⟨[noon, noon], rfl, by simp [UtcTime.lt, noon]⟩
  have hfaultless : Faultless ([⟨.restart, []⟩] ++ ⟨.insert (receivedAtNoon 7), []⟩ ::
      (firstRound ++ ⟨.insert (receivedAtNoon 8), []⟩ :: [⟨.claim, []⟩])) := by
    simp [Faultless, firstRound]
  exact delivery_order Tables.empty [⟨.restart, []⟩] firstRound [⟨.claim, []⟩] (receivedAtNoon 7)
    (receivedAtNoon 8) hfaultless hclock rfl rfl (by decide)
    ⟨by decide +kernel, by decide +kernel⟩ ⟨by decide +kernel, by decide +kernel⟩ bothClaimed
    (by decide +kernel) ⟨receivedAtNoon 8, .inFlight, 1⟩ (by decide) rfl

end EquipmentMonitoring.Forwarder
