import EquipmentMonitoring.Gateway.Forwarder

/-!
# What a Round Does to the Queue

Whatever the backend answers, a round that returns leaves no claim behind: the batch is either
pending again as a whole, or every row of it has been settled by its own item of the response.

## Key Results

- `release_exec`, `deliver_exec`: the tables after the two ways a round can end
- `drainOnce_returns`: without faults a round throws only when an attempt count is exhausted
- `drain_once_settles`: the two outcomes of a round, for any answer
-/

namespace EquipmentMonitoring.Forwarder

open EquipmentMonitoring.Store EquipmentMonitoring.Json

/-- The rows a round claims. -/
def batch (t : Tables) : List QueuedEvent := oldestPending maxBatchSize t

/-! ## The Two Outcomes -/

/-- The batch is pending again, one attempt later, and nothing else has changed. -/
structure ReturnedToPending (t t' : Tables) : Prop where
  intake : ∀ r', r' ∈ t'.intakeEvents ↔ (r' ∈ t.intakeEvents ∧ r' ∉ batch t) ∨
    ∃ r ∈ batch t, r' = { r with attemptCount := r.attemptCount + 1 }
  quarantine : ∀ q, q ∈ t'.quarantinedEvents ↔ q ∈ t.quarantinedEvents

/-- The row in quarantine, unchanged but for the attempt that was made. -/
def quarantined (now : Bytes) (r : QueuedEvent) (reason : Bytes) : QuarantinedEvent :=
  ⟨r.event, r.attemptCount + 1, reason, now⟩

/-- Every row of the batch has left the queue as its own item of the response says. -/
structure SettledBy [Nlohmann.Library] (now body : Bytes) (results : List Value) (t t' : Tables) :
    Prop where
  envelope : Envelope body results
  length : results.length = (batch t).length
  each : ∀ p ∈ (batch t).zip results,
    (∃ action, Confirms p.2 p.1.event action ∧ ¬Recorded t' (identity p.1.event)) ∨
      ∃ reason, Rejects p.2 p.1.event reason ∧
        quarantined now p.1 reason ∈ t'.quarantinedEvents
  intake : ∀ r', r' ∈ t'.intakeEvents ↔ r' ∈ t.intakeEvents ∧ r' ∉ batch t
  quarantine : ∀ q ∈ t'.quarantinedEvents, q ∈ t.quarantinedEvents ∨
    ∃ p ∈ (batch t).zip results, ∃ reason, Rejects p.2 p.1.event reason ∧
      q = quarantined now p.1 reason
  kept : ∀ q ∈ t.quarantinedEvents, q ∈ t'.quarantinedEvents

/-! ## Pairing -/

section Pairing

variable {α β γ : Type} {r : α × β → γ → Prop} {as : List α} {bs : List β} {cs : List γ}

/-- Lists decided on together can be read row by row. -/
theorem exists_of_mem_zip_right (hlength : bs.length = as.length)
    (h : List.Forall₂ r (as.zip bs) cs) :
    ∀ s ∈ as.zip cs, ∃ b, (s.1, b) ∈ as.zip bs ∧ r (s.1, b) s.2 := by
  induction as generalizing bs cs with
  | nil => simp
  | cons a as ih =>
    obtain ⟨b, bs, rfl⟩ := List.exists_cons_of_length_eq_add_one hlength
    obtain ⟨c, cs, hr, hrest, rfl⟩ := List.forall₂_cons_left_iff.mp h
    simp only [List.zip_cons_cons, List.forall_mem_cons]
    refine ⟨⟨b, List.mem_cons_self .., hr⟩, fun s hs => ?_⟩
    obtain ⟨b', hmem, hr'⟩ := ih (by simpa using hlength) hrest s hs
    exact ⟨b', List.mem_cons_of_mem _ hmem, hr'⟩

theorem exists_of_mem_zip_left (hlength : bs.length = as.length)
    (h : List.Forall₂ r (as.zip bs) cs) :
    ∀ p ∈ as.zip bs, ∃ c, (p.1, c) ∈ as.zip cs ∧ r p c := by
  induction as generalizing bs cs with
  | nil => simp
  | cons a as ih =>
    obtain ⟨b, bs, rfl⟩ := List.exists_cons_of_length_eq_add_one hlength
    obtain ⟨c, cs, hr, hrest, rfl⟩ := List.forall₂_cons_left_iff.mp h
    simp only [List.zip_cons_cons, List.forall_mem_cons]
    refine ⟨⟨c, List.mem_cons_self .., hr⟩, fun p hp => ?_⟩
    obtain ⟨c', hmem, hr'⟩ := ih (by simpa using hlength) hrest p hp
    exact ⟨c', List.mem_cons_of_mem _ hmem, hr'⟩

theorem exists_mem_zip_of_mem (hlength : bs.length = as.length) {a : α} (ha : a ∈ as) :
    ∃ b, (a, b) ∈ as.zip bs := by
  induction as generalizing bs with
  | nil => simp at ha
  | cons a' as ih =>
    obtain ⟨b, bs, rfl⟩ := List.exists_cons_of_length_eq_add_one hlength
    rcases List.mem_cons.mp ha with rfl | ha
    · exact ⟨b, by simp⟩
    · obtain ⟨b', hb'⟩ := ih (by simpa using hlength) ha
      exact ⟨b', by simp [hb']⟩

theorem exists_of_mem_right {s : α → γ → Prop} (h : List.Forall₂ s as cs) {c : γ} (hc : c ∈ cs) :
    ∃ a ∈ as, s a c := by
  induction h with
  | nil => simp at hc
  | cons hs _ ih =>
    rcases List.mem_cons.mp hc with rfl | hc
    · exact ⟨_, List.mem_cons_self .., hs⟩
    · obtain ⟨a, ha, hac⟩ := ih hc
      exact ⟨a, List.mem_cons_of_mem _ ha, hac⟩

end Pairing

/-! ## Settlements of the Claimed Batch -/

/-- The batch as claimed. -/
def claimedBatch (t : Tables) : List QueuedEvent := (batch t).map claimRow

/-- The tables once the batch is claimed. -/
def claimedTables (t : Tables) : Tables := claimAll (batch t) t

theorem mem_batch {t : Tables} {r : QueuedEvent} (h : r ∈ batch t) :
    r ∈ t.intakeEvents ∧ r.state = .pending := mem_oldestPending h

theorem mem_claimedTables {t : Tables} {r' : QueuedEvent} :
    r' ∈ (claimedTables t).intakeEvents ↔
      (r' ∈ t.intakeEvents ∧ r' ∉ batch t) ∨ r' ∈ claimedBatch t := by
  rw [claimedTables, mem_claimAll fun r hr => (mem_batch hr).1, claimedBatch, List.mem_map]

theorem release_claimRow {r : QueuedEvent} (h : r.state = .pending) :
    releaseRow (claimRow r) = { r with attemptCount := r.attemptCount + 1 } := by
  simp [releaseRow, claimRow, h]

/-- The queue rows after any settlement of the claimed batch. -/
theorem mem_settled_intake {now : Bytes} {t t' : Tables} {decisions : List DeliveryDecision}
    (hidle : ∀ r ∈ t.intakeEvents, r.state = .pending)
    (h : Sql.exec (applyDecisions now (claimedBatch t) decisions) (claimedTables t) = (.ok (), t'))
    {r' : QueuedEvent} :
    r' ∈ t'.intakeEvents ↔ (r' ∈ t.intakeEvents ∧ r' ∉ batch t) ∨
      ∃ s ∈ (claimedBatch t).zip decisions, s.2.action = .retry ∧ r' = releaseRow s.1 := by
  obtain ⟨hshape, hall, rfl⟩ := applyDecisions_exec.mp h
  have hrows : ∀ s ∈ (claimedBatch t).zip decisions, s.1 ∈ (claimedTables t).intakeEvents :=
    fun s hs => mem_claimedTables.mpr (.inr (List.of_mem_zip hs).1)
  rw [mem_settleAll_intake hall hrows, mem_claimedTables]
  refine or_congr_left ⟨?_, ?_⟩
  · rintro ⟨hold | hclaimed, hne⟩
    · exact hold
    · -- every claimed row has a decision
      obtain ⟨d, hd⟩ := exists_mem_zip_of_mem hshape.1.symm hclaimed
      exact absurd rfl (hne _ hd)
  · rintro ⟨hrow, hmem⟩
    refine ⟨.inl ⟨hrow, hmem⟩, ?_⟩
    rintro s hs rfl
    obtain ⟨r, -, hr⟩ := List.mem_map.mp (List.of_mem_zip hs).1
    have hpending := hidle s.1 hrow
    rw [← hr] at hpending
    simp [claimRow] at hpending

theorem mem_settled_quarantine {now : Bytes} {t t' : Tables} {decisions : List DeliveryDecision}
    (h : Sql.exec (applyDecisions now (claimedBatch t) decisions) (claimedTables t) = (.ok (), t'))
    {q : QuarantinedEvent} :
    q ∈ t'.quarantinedEvents ↔ q ∈ t.quarantinedEvents ∨
      ∃ s ∈ (claimedBatch t).zip decisions, s.2.action = .rejected ∧
        q = quarantineRow now s.1 s.2.reason := by
  obtain ⟨-, hall, rfl⟩ := applyDecisions_exec.mp h
  exact mem_settleAll_quarantine hall

/-- A release returns the claimed batch. -/
theorem release_exec {now : Bytes} {t t' : Tables}
    (hidle : ∀ r ∈ t.intakeEvents, r.state = .pending)
    (h : Sql.exec (release now (claimedBatch t)) (claimedTables t) = (.ok (), t')) :
    ReturnedToPending t t' := by
  have hretry : ∀ s ∈ (claimedBatch t).zip (List.replicate (claimedBatch t).length retry),
      s.2 = retry := fun s hs => List.eq_of_mem_replicate (List.of_mem_zip hs).2
  constructor
  · intro r'
    rw [mem_settled_intake hidle h]
    refine or_congr_right ⟨?_, ?_⟩
    · rintro ⟨s, hs, -, rfl⟩
      obtain ⟨r, hr, hclaim⟩ := List.mem_map.mp (List.of_mem_zip hs).1
      exact ⟨r, hr, by rw [← hclaim, release_claimRow (mem_batch hr).2]⟩
    · rintro ⟨r, hr, rfl⟩
      have hclaimed : claimRow r ∈ claimedBatch t := List.mem_map_of_mem hr
      have hlength : (List.replicate (claimedBatch t).length retry).length =
          (claimedBatch t).length := List.length_replicate
      obtain ⟨d, hd⟩ := exists_mem_zip_of_mem hlength hclaimed
      refine ⟨_, hd, ?_, (release_claimRow (mem_batch hr).2).symm⟩
      -- a retry leaves the row, so it is there to be read back
      rw [hretry _ hd]
      rfl
  · intro q
    rw [mem_settled_quarantine h]
    refine or_iff_left ?_
    rintro ⟨s, hs, hrejected, -⟩
    rw [hretry s hs] at hrejected
    exact absurd hrejected (by decide)

theorem batch_nodup (t : Tables) : ((batch t).map fun r => identity r.event).Nodup :=
  oldestPending_nodup maxBatchSize t

/-- A row of the batch has one item. -/
theorem eq_of_mem_zip {t : Tables} {results : List Value} (hlength : results.length = (batch t).length)
    {p p' : QueuedEvent × Value} (hp : p ∈ (batch t).zip results) (hp' : p' ∈ (batch t).zip results)
    (hid : identity p.1.event = identity p'.1.event) : p = p' := by
  have hfst : (((batch t).zip results).map Prod.fst).map (fun r => identity r.event) =
      (batch t).map fun r => identity r.event := by
    rw [List.map_fst_zip (le_of_eq hlength.symm)]
  rw [List.map_map] at hfst
  exact List.inj_on_of_nodup_map (hfst ▸ batch_nodup t) hp hp' hid

/-- No item both confirms and rejects. -/
theorem not_rejects_of_confirms {item : Value} {event event' : Telemetry.Event}
    {action : DeliveryAction} {reason : Bytes} (hc : Confirms item event action)
    (hr : Rejects item event' reason) : False := by
  have hne : ascii "accepted" ≠ ascii "rejected" ∧ ascii "duplicate" ≠ ascii "rejected" := by
    decide
  rcases hc.outcome with ⟨-, h⟩ | ⟨-, h⟩ <;> rw [hr.outcome] at h
  · exact hne.1 (Value.string.inj (Option.some.inj h)).symm
  · exact hne.2 (Value.string.inj (Option.some.inj h)).symm

theorem claimedBatch_sequence {t : Tables} (ht : Consistent t) :
    ∀ row ∈ claimedBatch t, 0 ≤ row.event.sequenceNumber := by
  intro row hrow
  obtain ⟨r, hr, rfl⟩ := List.mem_map.mp hrow
  exact ht.sequence _ (.inl ⟨r, (mem_batch hr).1, rfl⟩)

/-- The decisions of a response settle the claimed batch, row by row. -/
theorem deliver_settles [Nlohmann.Library] {now body : Bytes} {t t' : Tables}
    {decisions : List DeliveryDecision} (ht : Consistent t)
    (hidle : ∀ r ∈ t.intakeEvents, r.state = .pending)
    (hparse : parseDecisions body (claimedBatch t) = .ok decisions)
    (h : Sql.exec (applyDecisions now (claimedBatch t) decisions) (claimedTables t) =
      (.ok (), t')) :
    ∃ results, SettledBy now body results t t' := by
  obtain ⟨results, henvelope, hlength, hitems⟩ :=
    parseDecisions_eq_ok (claimedBatch_sequence ht) hparse
  have hbatch : results.length = (batch t).length := by simpa [claimedBatch] using hlength
  have hzip : (claimedBatch t).zip results =
      ((batch t).zip results).map fun p => (claimRow p.1, p.2) := by
    simp only [claimedBatch, List.zip_map_left]
    rfl
  -- a settled row, seen from its decision
  have hdecision : ∀ s ∈ (claimedBatch t).zip decisions, ∃ p ∈ (batch t).zip results,
      s.1 = claimRow p.1 ∧ Decides p.2 p.1.event s.2 := by
    intro s hs
    obtain ⟨item, hmem, hdecides⟩ := exists_of_mem_zip_right hlength hitems s hs
    rw [hzip] at hmem
    obtain ⟨p, hp, heq⟩ := List.mem_map.mp hmem
    obtain ⟨hrow, hitem⟩ := Prod.mk.inj heq
    exact ⟨p, hp, hrow.symm, by simpa [hitem, ← hrow, claimRow] using hdecides⟩
  -- and from its item
  have hitem : ∀ p ∈ (batch t).zip results, ∃ d,
      (claimRow p.1, d) ∈ (claimedBatch t).zip decisions ∧ Decides p.2 p.1.event d := by
    intro p hp
    have hmem : (claimRow p.1, p.2) ∈ (claimedBatch t).zip results := by
      rw [hzip]
      exact List.mem_map.mpr ⟨p, hp, rfl⟩
    exact exists_of_mem_zip_left hlength hitems _ hmem
  have hintake {r' : QueuedEvent} :
      r' ∈ t'.intakeEvents ↔ r' ∈ t.intakeEvents ∧ r' ∉ batch t := by
    rw [mem_settled_intake hidle h]
    refine or_iff_left ?_
    rintro ⟨s, hs, hretry, -⟩
    obtain ⟨p, -, -, hdecides⟩ := hdecision s hs
    generalize s.2 = d at hdecides hretry
    cases hdecides with
    | confirm action hc =>
      rcases hc.outcome with ⟨rfl, -⟩ | ⟨rfl, -⟩ <;> simp at hretry
    | reject => simp at hretry
  have hquarantine : ∀ q ∈ t'.quarantinedEvents, q ∈ t.quarantinedEvents ∨
      ∃ p ∈ (batch t).zip results, ∃ reason, Rejects p.2 p.1.event reason ∧
        q = quarantined now p.1 reason := by
    intro q hq
    rcases (mem_settled_quarantine h).mp hq with hold | ⟨s, hs, hrejected, rfl⟩
    · exact .inl hold
    · obtain ⟨p, hp, hrow, hdecides⟩ := hdecision s hs
      refine .inr ⟨p, hp, s.2.reason, ?_, by rw [hrow]; rfl⟩
      generalize s.2 = d at hdecides hrejected
      cases hdecides with
      | confirm action hc => rcases hc.outcome with ⟨rfl, -⟩ | ⟨rfl, -⟩ <;> simp at hrejected
      | reject reason hr => exact hr
  refine ⟨results, henvelope, hbatch, fun p hp => ?_, fun _ => hintake, hquarantine,
    fun q hq => (mem_settled_quarantine h).mpr (.inl hq)⟩
  obtain ⟨d, hd, hdecides⟩ := hitem p hp
  obtain ⟨hrow, -⟩ := mem_batch (List.of_mem_zip hp).1
  cases hdecides with
  | confirm action hc =>
    refine .inl ⟨action, hc, ?_⟩
    rintro (⟨r', hr', hid⟩ | ⟨q, hq, hid⟩)
    · obtain ⟨hmem, hnot⟩ := hintake.mp hr'
      exact hnot (Table.eq_of_key_eq hmem hrow hid ▸ (List.of_mem_zip hp).1)
    · rcases hquarantine q hq with hold | ⟨p', hp', reason, hr, rfl⟩
      · exact ht.noOverlap p.1 hrow q hold hid.symm
      · obtain rfl := eq_of_mem_zip hbatch hp' hp hid
        exact not_rejects_of_confirms hc hr
  | reject reason hr =>
    exact .inr ⟨reason, hr, (mem_settled_quarantine h).mpr (.inr ⟨_, hd, rfl, rfl⟩)⟩

/-! ## A Round -/

theorem stable_claimPending (limit : Nat) : Sql.Stable (claimPending limit) :=
  Sql.stable_transaction (stable_claimBody limit)

theorem stable_applyDecisions (now : Bytes) (claimed : List QueuedEvent)
    (decisions : List DeliveryDecision) : Sql.Stable (applyDecisions now claimed decisions) := by
  unfold applyDecisions
  split
  · exact Sql.stable_raise _
  · exact Sql.stable_transaction (stable_applyBody ..)

theorem deferDelivery_exec {now : Bytes} {claimed : List QueuedEvent} {level : Level}
    {message : String} {result : RunResult} {round : Round} {t t' : Tables}
    (h : Sql.exec (deferDelivery now claimed level message result) t = (.ok round, t')) :
    Sql.exec (release now claimed) t = (.ok (), t') := by
  obtain ⟨⟨⟩, t'', hrelease, hlog⟩ :=
    (Sql.exec_bind_eq_ok (stable_applyDecisions ..)).mp h
  simp only [queueDepth, Sql.exec_query_bind, Sql.exec_pure, Prod.mk.injEq] at hlog
  rw [← hlog.2]
  exact hrelease

theorem deliver_exec {now : Bytes} {claimed : List QueuedEvent} {decisions : List DeliveryDecision}
    {round : Round} {t t' : Tables}
    (h : Sql.exec (deliver now claimed decisions) t = (.ok round, t')) :
    Sql.exec (applyDecisions now claimed decisions) t = (.ok (), t') := by
  rw [deliver, Sql.exec_orElse_bind (stable_applyDecisions ..)] at h
  split at h
  · next t'' happly =>
    simp only [queueDepth, Sql.exec_query_bind, Sql.exec_pure, Prod.mk.injEq] at h
    rw [← h.2]
    exact happly
  · -- the exception goes on, so the round does not return
    next what t'' _ =>
    have hraise : Sql.Stable (release now claimed >>= fun _ => (Sql.raise what : Sql Tables Unit)) :=
      Sql.stable_bind (stable_applyDecisions ..) fun _ => Sql.stable_raise _
    obtain ⟨_, _, hhandler, -⟩ := (Sql.exec_bind_eq_ok hraise).mp h
    obtain ⟨_, _, -, hnever⟩ := (Sql.exec_bind_eq_ok (stable_applyDecisions ..)).mp hhandler
    simp at hnever

/-- The two outcomes of a round that returns. -/
theorem drainOnce_exec [Nlohmann.Library] {now : Bytes} {postBatch : Bytes → Except String Response}
    {t t' : Tables} {round : Round} (ht : Consistent t)
    (hidle : ∀ r ∈ t.intakeEvents, r.state = .pending)
    (h : Sql.exec (drainOnce now postBatch) t = (.ok round, t')) :
    ReturnedToPending t t' ∨
      ∃ request response results, batchJson (claimedBatch t) = .ok request ∧
        postBatch request = .ok response ∧ response.statusCode = 200 ∧
        SettledBy now response.body results t t' := by
  obtain ⟨claimed, t'', hclaimed, h⟩ := (Sql.exec_bind_eq_ok (stable_claimPending _)).mp h
  obtain ⟨-, rfl, rfl⟩ := claimPending_exec.mp hclaimed
  have hdefer {level : Level} {message : String} {result : RunResult}
      (h : Sql.exec (deferDelivery now (claimedBatch t) level message result) (claimedTables t) =
        (.ok round, t')) : ReturnedToPending t t' :=
    release_exec hidle (deferDelivery_exec h)
  change Sql.exec (forward now postBatch (claimedBatch t)) (claimedTables t) = (.ok round, t') at h
  unfold forward at h
  split at h
  · next hempty =>
    -- nothing was claimed
    obtain rfl : claimedTables t = t' := (Prod.mk.inj h).2
    have hnone : batch t = [] := List.map_eq_nil_iff.mp hempty
    refine .inl ⟨fun r' => ?_, fun q => Iff.rfl⟩
    rw [mem_claimedTables, hempty, hnone]
    simp
  · split at h
    · exact .inl (hdefer h)
    · next request hrequest =>
      unfold settle at h
      split at h
      · exact .inl (hdefer h)
      · next response hresponse =>
        split at h
        · exact .inl (hdefer h)
        · next hstatus =>
          split at h
          · exact .inl (hdefer h)
          · next decisions hdecisions =>
            obtain ⟨results, hsettled⟩ := deliver_settles ht hidle hdecisions (deliver_exec h)
            exact .inr ⟨request, response, results, hrequest, hresponse, not_not.mp hstatus,
              hsettled⟩

theorem ReturnedToPending.state {t t' : Tables} (h : ReturnedToPending t t')
    (hidle : ∀ r ∈ t.intakeEvents, r.state = .pending) : ∀ r ∈ t'.intakeEvents, r.state = .pending := by
  intro r' hr'
  rcases (h.intake r').mp hr' with ⟨hold, -⟩ | ⟨r, hr, rfl⟩
  · exact hidle r' hold
  · exact (mem_batch hr).2

/-! ## A Round Returns -/

theorem claimedBatch_nodup (t : Tables) :
    ((claimedBatch t).map fun r => identity r.event).Nodup := by
  rw [claimedBatch, List.map_map]
  exact batch_nodup t

/-- The claimed batch can be settled by any well-formed decisions. -/
theorem applyDecisions_returns {now : Bytes} {t : Tables} {decisions : List DeliveryDecision}
    (ht : Consistent t) (hbatch : claimedBatch t ≠ [])
    (hlength : decisions.length = (claimedBatch t).length)
    (hdecisions : ∀ d ∈ decisions, d.WellFormed) :
    ∃ t', Sql.exec (applyDecisions now (claimedBatch t) decisions) (claimedTables t) =
      (.ok (), t') := by
  have hsize : (claimedBatch t).length ≤ maxBatchSize := by
    simp [claimedBatch, batch, oldestPending]
  refine ⟨_, applyDecisions_exec.mpr ⟨⟨hlength.symm, hbatch, hsize⟩, ?_, rfl⟩⟩
  -- no two claims of one batch are of the same event
  refine allSettleable_of_ready ?_ fun s hs => ?_
  · have hfst := claimedBatch_nodup t
    rw [← List.map_fst_zip (le_of_eq hlength.symm), List.map_map] at hfst
    exact hfst
  · obtain ⟨hclaimed, hdecision⟩ := List.of_mem_zip hs
    refine ⟨mem_claimedTables.mpr (.inr hclaimed), ?_, ?_, hdecisions _ hdecision, ?_⟩ <;>
      obtain ⟨r, hr, hclaim⟩ := List.mem_map.mp hclaimed <;> rw [← hclaim]
    · rfl
    · have := ht.attempts r (mem_batch hr).1
      simp only [claimRow]
      omega
    · exact fun q hq hid => ht.noOverlap r (mem_batch hr).1 q hq hid.symm

theorem wellFormed_of_decides {item : Value} {event : Telemetry.Event} {d : DeliveryDecision}
    (h : Decides item event d) : d.WellFormed := by
  cases h with
  | confirm action hc =>
    rcases hc.outcome with ⟨rfl, -⟩ | ⟨rfl, -⟩ <;> simp [DeliveryDecision.WellFormed]
  | reject reason hr =>
    have hnonempty : ∀ reason ∈ permanentReasons, reason ≠ [] := by decide
    simp [DeliveryDecision.WellFormed, hnonempty reason hr.permanent]

theorem deferDelivery_returns {now : Bytes} {t : Tables} {level : Level} {message : String}
    {result : RunResult} (ht : Consistent t) (hbatch : claimedBatch t ≠ []) :
    ∃ round t', Sql.exec (deferDelivery now (claimedBatch t) level message result)
      (claimedTables t) = (.ok round, t') := by
  have hretry : ∀ d ∈ List.replicate (claimedBatch t).length retry, d.WellFormed := by
    intro d hd
    simp [List.eq_of_mem_replicate hd, DeliveryDecision.WellFormed, retry]
  obtain ⟨t', hrelease⟩ : ∃ t', Sql.exec (release now (claimedBatch t)) (claimedTables t) =
      (.ok (), t') := applyDecisions_returns ht hbatch List.length_replicate hretry
  exact ⟨_, t', (Sql.exec_bind_eq_ok (stable_applyDecisions ..)).mpr ⟨(), t', hrelease, rfl⟩⟩

/-- Without faults a round throws only when an attempt count is exhausted, and then changes
nothing. -/
theorem drainOnce_returns [Nlohmann.Library] (now : Bytes)
    (postBatch : Bytes → Except String Response) (t : Tables) (ht : Reachable t)
    (hcount : ∀ r ∈ batch t, r.attemptCount ≠ maxAttemptCount) :
    ∃ round t', Sql.exec (drainOnce now postBatch) t = (.ok round, t') := by
  have hclaim : Sql.exec (claimPending maxBatchSize) t = (.ok (claimedBatch t), claimedTables t) :=
    claimPending_exec.mpr ⟨⟨by decide, fun r hr =>
      ⟨ht.consistent.attempts r (mem_batch hr).1, hcount r hr⟩⟩, rfl, rfl⟩
  -- Claiming succeeds, so only what follows the claim can stop the round.
  suffices hforward : ∃ round t', Sql.exec (forward now postBatch (claimedBatch t))
      (claimedTables t) = (.ok round, t') by
    obtain ⟨round, t', h⟩ := hforward
    exact ⟨round, t', (Sql.exec_bind_eq_ok (stable_claimPending _)).mpr ⟨_, _, hclaim, h⟩⟩
  unfold forward
  split
  · exact ⟨_, _, rfl⟩
  · next hbatch =>
    split
    · exact deferDelivery_returns ht.consistent hbatch
    · unfold settle
      split
      · exact deferDelivery_returns ht.consistent hbatch
      · split
        · exact deferDelivery_returns ht.consistent hbatch
        · split
          · exact deferDelivery_returns ht.consistent hbatch
          · next decisions hdecisions =>
            obtain ⟨results, -, hlength, hitems⟩ :=
              parseDecisions_eq_ok (claimedBatch_sequence ht.consistent) hdecisions
            -- a decision that was read from an item gives a reason exactly when it rejects
            have hwellFormed : ∀ d ∈ decisions, d.WellFormed := fun d hd => by
              obtain ⟨p, -, hp⟩ := exists_of_mem_right hitems hd
              exact wellFormed_of_decides hp
            have hcount : decisions.length = (claimedBatch t).length := by
              rw [← hitems.length_eq, List.length_zip, hlength, Nat.min_self]
            obtain ⟨t', happly⟩ : ∃ t', Sql.exec (applyDecisions now (claimedBatch t) decisions)
                (claimedTables t) = (.ok (), t') :=
              applyDecisions_returns ht.consistent hbatch hcount hwellFormed
            simp only [deliver, Sql.exec_orElse_bind (stable_applyDecisions ..), happly]
            exact ⟨_, _, rfl⟩

/-- A round that returns leaves nothing in flight, leaves the other rows and the quarantine as
they were, and returns the batch or settles each row of it by its own item. -/
theorem drain_once_settles [Nlohmann.Library] (now : Bytes)
    (postBatch : Bytes → Except String Response) (t t' : Tables) (round : Round) (ht : Reachable t)
    (hidle : ∀ r ∈ t.intakeEvents, r.state = .pending)
    (h : Sql.exec (drainOnce now postBatch) t = (.ok round, t')) :
    (∀ r ∈ t'.intakeEvents, r.state = .pending) ∧
      (∀ r ∈ t.intakeEvents, r ∉ batch t → r ∈ t'.intakeEvents) ∧
      (∀ q ∈ t.quarantinedEvents, q ∈ t'.quarantinedEvents) ∧
      (ReturnedToPending t t' ∨
        ∃ request response results, batchJson (claimedBatch t) = .ok request ∧
          postBatch request = .ok response ∧ response.statusCode = 200 ∧
          SettledBy now response.body results t t') := by
  have houtcome := drainOnce_exec ht.consistent hidle h
  refine ⟨?_, ?_, ?_, houtcome⟩ <;>
    rcases houtcome with hreturned | ⟨request, response, results, -, -, -, hsettled⟩
  · exact hreturned.state hidle
  · exact fun r hr => hidle r ((hsettled.intake r).mp hr).1
  · exact fun r hr hmem => (hreturned.intake r).mpr (.inl ⟨hr, hmem⟩)
  · exact fun r hr hmem => (hsettled.intake r).mpr ⟨hr, hmem⟩
  · exact fun q hq => (hreturned.quarantine q).mpr hq
  · exact hsettled.kept

/-! ## A Delivery -/

def sampleRow (digit : UInt8) : Telemetry.Event :=
  ⟨ascii "d-1", ascii "b", digit.toNat,
    ascii "\x7b\"schema_version\":1,\"device_id\":\"d-1\",\"boot_id\":\"b\"," ++
      ascii "\"sequence_number\":" ++ [0x30 + digit] ++ ascii ",\"measured_at\":null," ++
      ascii "\"device_uptime_ms\":1,\"metric\":\"temperature\",\"value\":31.4," ++
      ascii "\"unit\":\"celsius\",\"quality\":\x7b\"reading\":\"valid\",\"clock\":\"unknown\"\x7d\x7d",
    Telemetry.sampleReceivedAt⟩

def sampleQueue : Tables :=
  (run (start Tables.empty) [⟨.reopen, []⟩, ⟨.insert (sampleRow 7), []⟩, ⟨.insert (sampleRow 8), []⟩,
    ⟨.insert (sampleRow 9), []⟩]).tables

def sampleItem (digit : UInt8) (outcome : Bytes) : Bytes :=
  ascii "\x7b\"device_id\":\"d-1\",\"boot_id\":\"b\",\"sequence_number\":" ++ [0x30 + digit] ++
    ascii ",\"outcome\":" ++ outcome ++ ascii "\x7d"

/-- The middle one of three readings is refused. -/
def sampleAnswer : Bytes :=
  ascii "\x7b\"batch_id\":\"b-1\",\"results\":[" ++ sampleItem 7 (ascii "\"accepted\"") ++ ascii "," ++
    sampleItem 8 (ascii "\"rejected\",\"reason\":\"wrong_gateway\"") ++ ascii "," ++
    sampleItem 9 (ascii "\"duplicate\"") ++ ascii "]\x7d"

def sampleBackend (_ : Bytes) : Except String Response := .ok ⟨200, sampleAnswer⟩

def sampleRound : Round :=
  ⟨.delivered, some ⟨.info, "batch_applied", "confirmed=2 quarantined=1", 0⟩⟩

def sampleQuarantine : List QuarantinedEvent :=
  [⟨sampleRow 8, 1, ascii "wrong_gateway", ascii "noon"⟩]

theorem drainOnce_sample :
    (Sql.exec (drainOnce (ascii "noon") sampleBackend) sampleQueue).1 = .ok sampleRound ∧
      (Sql.exec (drainOnce (ascii "noon") sampleBackend) sampleQueue).2.quarantinedEvents.rows =
        sampleQuarantine := by
  decide +kernel

theorem drain_once_settles_sample :
    ∃ t', Sql.exec (drainOnce (ascii "noon") sampleBackend) sampleQueue = (.ok sampleRound, t') ∧
      (batch sampleQueue).map QueuedEvent.event = [sampleRow 7, sampleRow 8, sampleRow 9] ∧
      (∀ r ∈ t'.intakeEvents, r.state = .pending) ∧
      t'.quarantinedEvents.rows = sampleQuarantine ∧
      ∃ results, SettledBy (ascii "noon") sampleAnswer results sampleQueue t' := by
  have hreachable : Reachable sampleQueue := ⟨_, by decide +kernel, rfl⟩
  have hround := drainOnce_sample
  rcases h : Sql.exec (drainOnce (ascii "noon") sampleBackend) sampleQueue with ⟨r, t'⟩
  simp only [h] at hround
  obtain ⟨rfl, hquarantine⟩ := hround
  obtain ⟨hpending, -, -, houtcome⟩ :=
    drain_once_settles _ _ _ _ _ hreachable (by decide +kernel) h
  refine ⟨t', rfl, by decide +kernel, hpending, hquarantine, ?_⟩
  rcases houtcome with hreturned | ⟨_, response, results, -, hresponse, -, hsettled⟩
  · -- a batch that is returned puts nothing in quarantine
    have hempty : sampleQueue.quarantinedEvents.rows = [] := by decide +kernel
    have hmem : ⟨sampleRow 8, 1, ascii "wrong_gateway", ascii "noon"⟩ ∈ t'.quarantinedEvents := by
      rw [Table.mem_def, hquarantine]
      exact List.mem_singleton.mpr rfl
    have hnone := (hreturned.quarantine _).mp hmem
    rw [Table.mem_def, hempty] at hnone
    exact absurd hnone List.not_mem_nil
  · obtain rfl : ⟨200, sampleAnswer⟩ = response := Except.ok.inj hresponse
    exact ⟨results, hsettled⟩

end EquipmentMonitoring.Forwarder
