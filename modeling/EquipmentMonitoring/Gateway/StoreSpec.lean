import EquipmentMonitoring.Foundations.Except
import EquipmentMonitoring.Gateway.Store

/-!
# What Each Store Operation Does

One lemma an operation: either it throws and both tables are as they were, or it returns and the
tables have changed as stated. Callers use these lemmas and never unfold an operation.

## Key Results

- `insert_spec`, `loadPending_spec`, `claimPending_spec`, `releaseClaim_spec`,
  `applyDecisions_spec`, `initializeSchema_spec`
- `applyDecisions_exec`: without faults, a settlement of rows that are as claimed succeeds
-/

namespace EquipmentMonitoring.Store

open EquipmentMonitoring.Telemetry

/-- The program throws and leaves the tables alone, or returns with the stated effect. -/
def Performs {α : Type} (x : Sql Tables α) (c : Connection Tables) (effect : α → Tables → Prop) :
    Prop :=
  (∃ what, (x c).1 = .error what ∧ (x c).2.data = c.data) ∨
    ∃ a, (x c).1 = .ok a ∧ effect a (x c).2.data

theorem performs_raise {α : Type} {effect : α → Tables → Prop} (what : String)
    (c : Connection Tables) : Performs (Sql.raise what) c effect :=
  .inl ⟨what, rfl, rfl⟩

theorem performs_calls (n : Nat) (c : Connection Tables) :
    Performs (Sql.calls n) c fun _ t' => t' = c.data := by
  have hdata := Sql.calls_data n c
  unfold Performs
  rcases h : Sql.calls n c with ⟨what | _, c'⟩
  · exact .inl ⟨what, rfl, by rw [← hdata, h]⟩
  · exact .inr ⟨(), rfl, by rw [← hdata, h]⟩

theorem performs_map {α β : Type} {x : Sql Tables α} {f : α → β} {c : Connection Tables}
    {effect : α → Tables → Prop} {effect' : β → Tables → Prop} (h : Performs x c effect)
    (hf : ∀ a t', effect a t' → effect' (f a) t') : Performs (f <$> x) c effect' := by
  have hmap : (f <$> x) c = Sql.andThen x (fun a => Sql.ok (f a)) c := rfl
  unfold Performs at *
  rw [hmap, Sql.andThen]
  rcases hx : x c with ⟨what | a, c'⟩
  · simpa [hx] using h
  · simp only [hx, reduceCtorEq, false_and, exists_false, Except.ok.injEq, exists_eq_left',
      false_or] at h
    exact .inr ⟨f a, rfl, hf a _ h⟩

/-- A transaction performs what it does without faults. -/
theorem performs_transaction {α : Type} {x : Sql Tables (Finish α)} (hx : Sql.Stable x)
    {c : Connection Tables} {effect : α → Tables → Prop}
    (h : ∀ a t', Sql.exec (Sql.transaction x) c.data = (.ok a, t') → effect a t') :
    Performs (Sql.transaction x) c effect := by
  rcases Sql.transaction_cases hx c with herr | ⟨a, ha, hexec⟩
  · exact .inl herr
  · exact .inr ⟨a, ha, h a _ hexec⟩

/-! ## Inserting -/

/-- The identity is recorded, queued or in quarantine. -/
def Recorded (t : Tables) (id : Identity) : Prop :=
  (∃ r ∈ t.intakeEvents, identity r.event = id) ∨ ∃ q ∈ t.quarantinedEvents, identity q.event = id

/-- A new row, for an identity that was recorded nowhere. -/
structure Inserted (event : Event) (t t' : Tables) : Prop where
  nonneg : 0 ≤ event.sequenceNumber
  fresh : ¬Recorded t (identity event)
  intake : t'.intakeEvents.rows = t.intakeEvents.rows ++ [⟨event, .pending, 0⟩]
  quarantine : t'.quarantinedEvents = t.quarantinedEvents

/-- What `insert` returns, and the tables then. -/
inductive InsertEffect (event : Event) (t : Tables) : InsertResult → Tables → Prop where
  | inserted (t' : Tables) (h : Inserted event t t') : InsertEffect event t .inserted t'
  | known (recorded : Bytes)
      (h : (∃ r ∈ t.intakeEvents, identity r.event = identity event ∧
          r.event.mqttPayload = recorded) ∨
        ∃ q ∈ t.quarantinedEvents, identity q.event = identity event ∧
          q.event.mqttPayload = recorded) :
      InsertEffect event t (compareContent recorded event.mqttPayload) t

theorem stable_insertBody (event : Event) : Sql.Stable (insertBody event) := by
  refine Sql.stable_bind (Sql.stable_query ..) fun quarantined => ?_
  cases quarantined with
  | some row => exact Sql.stable_ok _
  | none =>
    refine Sql.stable_bind (Sql.stable_statement ..) fun changes => ?_
    split
    · exact Sql.stable_ok _
    · refine Sql.stable_bind (Sql.stable_query ..) fun existing => ?_
      cases existing with
      | none => exact Sql.stable_raise _
      | some row => exact Sql.stable_ok _

/-- Without faults an insertion decides on what is recorded. -/
theorem insert_exec {event : Event} {t t' : Tables} {r : InsertResult}
    (h : Sql.exec (insert event) t = (.ok r, t')) : InsertEffect event t r t' := by
  rw [insert, Sql.exec_transaction (stable_insertBody event)] at h
  simp only [insertBody, Sql.exec_query_bind] at h
  -- The quarantine is asked first: an identity there is never queued again.
  cases hq : t.quarantinedEvents.find? (identity event) with
  | some row =>
    simp only [hq, Sql.exec_pure, Prod.mk.injEq, Except.ok.injEq] at h
    obtain ⟨rfl, rfl⟩ := h
    obtain ⟨hmem, hid⟩ := Table.find?_eq_some.mp hq
    exact .known _ (.inr ⟨row, hmem, hid, rfl⟩)
  | none =>
    simp only [hq, Sql.exec_statement_bind, insertIntake] at h
    by_cases hneg : event.sequenceNumber < 0
    · simp [hneg] at h
    · simp only [hneg, if_false] at h
      cases hi : t.intakeEvents.insert ⟨event, .pending, 0⟩ with
      | some intake =>
        simp only [hi, if_true, Sql.exec_pure, Prod.mk.injEq, Except.ok.injEq] at h
        obtain ⟨rfl, rfl⟩ := h
        obtain ⟨hfresh, hrows⟩ := Table.insert_eq_some.mp hi
        refine .inserted _ ⟨by omega, ?_, hrows, rfl⟩
        rintro (⟨r, hr, hid⟩ | ⟨q, hmem, hid⟩)
        · exact hfresh r hr hid
        · exact Table.find?_eq_none.mp hq q hmem hid
      | none =>
        simp only [hi, Nat.zero_ne_one, if_false, Sql.exec_query_bind] at h
        -- the insertion was ignored, so the row of this identity is read back
        cases he : t.intakeEvents.find? (identity event) with
        | none => simp [he] at h
        | some row =>
          simp only [he, Sql.exec_pure, Prod.mk.injEq, Except.ok.injEq] at h
          obtain ⟨rfl, rfl⟩ := h
          obtain ⟨hmem, hid⟩ := Table.find?_eq_some.mp he
          exact .known _ (.inl ⟨row, hmem, hid, rfl⟩)

theorem insert_spec (event : Event) (c : Connection Tables) :
    Performs (insert event) c (InsertEffect event c.data) :=
  performs_transaction (stable_insertBody event) fun _ _ => insert_exec

/-! ## Loading and Claiming -/

theorem mem_pendingRows {t : Tables} {r : QueuedEvent} :
    r ∈ pendingRows t ↔ r ∈ t.intakeEvents ∧ r.state = .pending := by
  rw [pendingRows, List.mem_insertionSort, List.mem_filter]
  simp [isPending, Table.mem_def]

theorem mem_oldestPending {t : Tables} {limit : Nat} {r : QueuedEvent}
    (h : r ∈ oldestPending limit t) : r ∈ t.intakeEvents ∧ r.state = .pending :=
  mem_pendingRows.mp (List.mem_of_mem_take h)

theorem oldestPending_nodup (limit : Nat) (t : Tables) :
    ((oldestPending limit t).map fun r => identity r.event).Nodup := by
  have hperm : (pendingRows t).Perm (t.intakeEvents.rows.filter isPending) :=
    List.perm_insertionSort _ _
  have hrows : ((t.intakeEvents.rows.filter isPending).map fun r => identity r.event).Nodup :=
    t.intakeEvents.keys_nodup.sublist (List.filter_sublist.map _)
  have hpending : ((pendingRows t).map fun r => identity r.event).Nodup :=
    (hperm.map _).nodup_iff.mpr hrows
  exact hpending.sublist ((List.take_sublist limit _).map _)

theorem stable_validateLimit (limit : Nat) : Sql.Stable (validateLimit limit) := by
  unfold validateLimit
  split
  · exact Sql.stable_raise _
  · exact Sql.stable_ok _

theorem stable_loadPending (limit : Nat) : Sql.Stable (loadPending limit) :=
  Sql.stable_bind (stable_validateLimit limit) fun _ => Sql.stable_statement ..

theorem loadPending_exec {limit : Nat} {t t' : Tables} {rows : List QueuedEvent} :
    Sql.exec (loadPending limit) t = (.ok rows, t') ↔
      (0 < limit ∧ limit ≤ maxBatchSize) ∧ (∀ r ∈ oldestPending limit t, 0 ≤ r.attemptCount) ∧
        rows = oldestPending limit t ∧ t' = t := by
  -- A row is read unless its attempt count is negative.
  have hread (r : QueuedEvent) : readRow r = .ok () ↔ 0 ≤ r.attemptCount := by
    unfold readRow
    split <;> simp <;> omega
  have hrows : (oldestPending limit t).forM readRow = .ok () ↔
      ∀ r ∈ oldestPending limit t, 0 ≤ r.attemptCount := by
    simp only [forM_eq_ok, hread]
  rw [loadPending, Sql.exec_bind (stable_validateLimit limit), validateLimit, ← hrows]
  by_cases hlimit : limit = 0 ∨ maxBatchSize < limit
  · simp only [hlimit, if_true, Sql.exec_raise, Prod.mk.injEq, reduceCtorEq, false_and, false_iff]
    omega
  · have hbounds : 0 < limit ∧ limit ≤ maxBatchSize := by omega
    simp only [hlimit, if_false, Sql.exec_ok, Sql.exec_statement]
    cases (oldestPending limit t).forM readRow with
    | error what => simp [bind, Except.bind]
    | ok u => simp [bind, Except.bind, hbounds, pure, Except.pure, eq_comm]

theorem loadPending_data (limit : Nat) : Sql.ReadOnly (loadPending limit) := by
  refine Sql.readOnly_bind ?_ fun _ => Sql.readOnly_statement fun t rows t' h => ?_
  · unfold validateLimit
    split
    · exact Sql.readOnly_raise _
    · exact Sql.readOnly_ok _
  · obtain ⟨_, _, h⟩ := except_bind_eq_ok.mp h
    exact (Prod.mk.inj (except_pure_eq_ok.mp h)).2.symm

theorem loadPending_spec (limit : Nat) (c : Connection Tables) :
    Performs (loadPending limit) c fun rows t' => t' = c.data ∧ rows = oldestPending limit c.data := by
  rcases h : loadPending limit c with ⟨what | rows, c'⟩
  · exact .inl ⟨what, by rw [h], loadPending_data limit c⟩
  · have hexec := (stable_loadPending limit).result c rows c' h
    have := loadPending_exec.mp (by rw [Sql.exec, hexec])
    refine .inr ⟨rows, by rw [h], ?_⟩
    rw [h]
    exact ⟨this.2.2.2, this.2.2.1⟩

/-! ### Claims -/

/-- Rows of the table, each pending and able to count one more attempt, are claimed in one pass. -/
def claimAll (rows : List QueuedEvent) (t : Tables) : Tables :=
  { t with
    intakeEvents := t.intakeEvents.update (fun r => decide (r ∈ rows)) claimRow
      identity_claimRow }

theorem matchesClaim_iff {state : QueueState} {claimed r : QueuedEvent} :
    matchesClaim state claimed r = true ↔
      identity r.event = identity claimed.event ∧ r.state = state ∧
        r.attemptCount = claimed.attemptCount := by
  simp [matchesClaim, and_assoc]

/-- In a table that holds the row itself, a claim addresses that row only. -/
theorem matchesClaim_self {t : Tables} {row r : QueuedEvent} (hrow : row ∈ t.intakeEvents)
    (hr : r ∈ t.intakeEvents) : matchesClaim row.state row r = decide (r = row) := by
  by_cases h : r = row
  · simp [h, matchesClaim]
  · have hne : identity r.event ≠ identity row.event :=
      fun hid => h (Table.eq_of_key_eq hr hrow hid)
    simp [h, matchesClaim, hne]

theorem claimAll_singleton {t : Tables} {row : QueuedEvent} (hrow : row ∈ t.intakeEvents) :
    (updateClaim row.state row claimRow identity_claimRow t).2 = claimAll [row] t := by
  simp only [updateClaim, claimAll, Tables.mk.injEq, and_true]
  refine Table.ext (List.map_congr_left fun r hr => ?_)
  simp [matchesClaim_self hrow hr]

theorem count_self {t : Tables} {row : QueuedEvent} (hrow : row ∈ t.intakeEvents) :
    t.intakeEvents.count (matchesClaim row.state row) = 1 := by
  have hkey (r : QueuedEvent) (h : matchesClaim row.state row r = true) :
      identity r.event = identity row.event := (matchesClaim_iff.mp h).1
  exact (Table.count_eq_one_iff hkey).mpr ⟨row, hrow, by simp [matchesClaim]⟩

theorem mem_claimAll_of_not_mem {t : Tables} {rows : List QueuedEvent} {r : QueuedEvent}
    (hr : r ∈ t.intakeEvents) (h : r ∉ rows) : r ∈ (claimAll rows t).intakeEvents := by
  rw [claimAll, Table.mem_update]
  exact ⟨r, hr, by simp [h]⟩

/-- The rows after a claim: the others as they were, the claimed ones marked. -/
theorem mem_claimAll {t : Tables} {rows : List QueuedEvent} (hrows : ∀ r ∈ rows, r ∈ t.intakeEvents)
    {r' : QueuedEvent} :
    r' ∈ (claimAll rows t).intakeEvents ↔
      (r' ∈ t.intakeEvents ∧ r' ∉ rows) ∨ ∃ r ∈ rows, claimRow r = r' := by
  rw [claimAll, Table.mem_update]
  constructor
  · rintro ⟨r, hr, rfl⟩
    by_cases hmem : r ∈ rows
    · exact .inr ⟨r, hmem, by simp [hmem]⟩
    · exact .inl (by simpa [hmem] using hr)
  · rintro (⟨hr, hmem⟩ | ⟨r, hmem, rfl⟩)
    · exact ⟨r', hr, by simp [hmem]⟩
    · exact ⟨r, hrows r hmem, by simp [hmem]⟩

theorem claimAll_cons {t : Tables} {row : QueuedEvent} {rows : List QueuedEvent}
    (hrow : claimRow row ∉ rows) : claimAll rows (claimAll [row] t) = claimAll (row :: rows) t := by
  simp only [claimAll, Table.update, Tables.mk.injEq, and_true, Table.mk.injEq, List.map_map]
  refine List.map_congr_left fun r _ => ?_
  by_cases h : r = row
  · simp [h, hrow]
  · simp [h]

theorem stable_claimOne (row : QueuedEvent) : Sql.Stable (claimOne row) := by
  unfold claimOne
  split
  · exact Sql.stable_raise _
  · refine Sql.stable_bind (Sql.stable_statement ..) fun changes => ?_
    split
    · exact Sql.stable_ok _
    · exact Sql.stable_raise _

theorem claimOne_exec {t t' : Tables} {row : QueuedEvent} (hrow : row ∈ t.intakeEvents)
    (hpending : row.state = .pending) :
    Sql.exec (claimOne row) t = (.ok (), t') ↔
      row.attemptCount ≠ maxAttemptCount ∧ t' = claimAll [row] t := by
  have hcount := count_self hrow
  have htables := claimAll_singleton hrow
  rw [hpending] at hcount htables
  unfold claimOne
  by_cases hmax : row.attemptCount = maxAttemptCount
  · simp [hmax]
  · rw [if_neg hmax, Sql.exec_statement_bind]
    -- The row still matches its own claim, so one row changes.
    have hchanges : (updateClaim .pending row claimRow identity_claimRow t).1 = 1 := hcount
    simp only [hchanges, if_true, Sql.exec_ok, htables]
    simp [hmax, eq_comm]

/-- The claiming loop over rows that are pending in the table. -/
theorem claimLoop_exec {rows : List QueuedEvent} {t t' : Tables}
    (hrows : ∀ r ∈ rows, r ∈ t.intakeEvents ∧ r.state = .pending)
    (hnodup : (rows.map fun r => identity r.event).Nodup) :
    Sql.exec (rows.forM claimOne) t = (.ok (), t') ↔
      (∀ r ∈ rows, r.attemptCount ≠ maxAttemptCount) ∧ t' = claimAll rows t := by
  induction rows generalizing t with
  | nil =>
    have hnone : claimAll [] t = t := by simp [claimAll, Table.update]
    rw [hnone]
    constructor
    · intro h
      exact ⟨by simp, (Prod.mk.inj h).2.symm⟩
    · rintro ⟨-, rfl⟩
      rfl
  | cons row rest ih =>
    rw [List.forall_mem_cons] at hrows
    simp only [List.map_cons, List.nodup_cons, List.mem_map, not_exists, not_and] at hnodup
    obtain ⟨⟨hrow, hpending⟩, hrest⟩ := hrows
    rw [Sql.exec_forM_cons stable_claimOne]
    by_cases hmax : row.attemptCount = maxAttemptCount
    · have herr : Sql.exec (claimOne row) t = (.error "SQLite queue attempt count overflow", t) := by
        simp [claimOne, hmax]
      simp [herr, hmax]
    · -- the first row is claimed; the others are still there, pending
      rw [(claimOne_exec hrow hpending).mpr ⟨hmax, rfl⟩]
      have hrest' : ∀ r ∈ rest, r ∈ (claimAll [row] t).intakeEvents ∧ r.state = .pending := by
        intro r hr
        refine ⟨mem_claimAll_of_not_mem (hrest r hr).1 ?_, (hrest r hr).2⟩
        intro hmem
        obtain rfl := List.mem_singleton.mp hmem
        exact hnodup.1 r hr rfl
      have hclaimed : claimRow row ∉ rest := fun hmem => by
        have := (hrest _ hmem).2
        simp [claimRow] at this
      simp only [ih hrest' hnodup.2, claimAll_cons hclaimed, List.forall_mem_cons]
      simp [hmax]

theorem stable_claimBody (limit : Nat) : Sql.Stable (claimBody limit) :=
  Sql.stable_bind (stable_loadPending limit) fun _ =>
    Sql.stable_bind (Sql.stable_forM stable_claimOne) fun _ => Sql.stable_ok _

/-- A claim takes the oldest pending rows, and marks and counts each. -/
theorem claimPending_exec {limit : Nat} {t t' : Tables} {rows : List QueuedEvent} :
    Sql.exec (claimPending limit) t = (.ok rows, t') ↔
      ((0 < limit ∧ limit ≤ maxBatchSize) ∧
        ∀ r ∈ oldestPending limit t, 0 ≤ r.attemptCount ∧ r.attemptCount ≠ maxAttemptCount) ∧
      rows = (oldestPending limit t).map claimRow ∧ t' = claimAll (oldestPending limit t) t := by
  -- The loop runs over rows of the table, all pending and no two the same.
  have hloop (t'' : Tables) : Sql.exec ((oldestPending limit t).forM claimOne) t = (.ok (), t'') ↔ _ :=
    claimLoop_exec (fun _ hr => mem_oldestPending hr) (oldestPending_nodup limit t)
  rw [claimPending, Sql.exec_transaction_eq_ok (stable_claimBody limit)]
  simp only [claimBody, Sql.exec_bind_eq_ok (stable_loadPending limit), loadPending_exec,
    Sql.exec_bind_eq_ok (Sql.stable_forM stable_claimOne), Sql.exec_pure, Prod.mk.injEq,
    Except.ok.injEq]
  constructor
  · rintro (⟨rows, _, ⟨hlimit, hread, rfl, rfl⟩, ⟨⟩, t'', hclaim, ⟨rfl⟩, rfl⟩ | ⟨h, -⟩)
    · obtain ⟨hmax, rfl⟩ := (hloop _).mp hclaim
      exact ⟨⟨hlimit, fun r hr => ⟨hread r hr, hmax r hr⟩⟩, rfl, rfl⟩
    · simp at h
  · rintro ⟨⟨hlimit, hattempts⟩, rfl, rfl⟩
    exact .inl ⟨_, _, ⟨hlimit, fun r hr => (hattempts r hr).1, rfl, rfl⟩, (), _,
      (hloop _).mpr ⟨fun r hr => (hattempts r hr).2, rfl⟩, rfl, rfl⟩

theorem claimPending_spec (limit : Nat) (c : Connection Tables) :
    Performs (claimPending limit) c fun rows t' =>
      rows = (oldestPending limit c.data).map claimRow ∧
        t' = claimAll (oldestPending limit c.data) c.data :=
  performs_transaction (stable_claimBody limit) fun _ _ h => (claimPending_exec.mp h).2

/-! ## Releasing -/

/-- The rows a claim addresses return to pending. -/
def releaseOne (claimed : QueuedEvent) (t : Tables) : Tables :=
  (updateClaim .inFlight claimed releaseRow identity_releaseRow t).2

/-- A release of a row that is as claimed returns that row to pending, and no other. -/
theorem mem_releaseOne {t : Tables} {claimed r' : QueuedEvent} (hrow : claimed ∈ t.intakeEvents)
    (hstate : claimed.state = .inFlight) :
    r' ∈ (releaseOne claimed t).intakeEvents ↔
      (r' ∈ t.intakeEvents ∧ r' ≠ claimed) ∨ r' = releaseRow claimed := by
  -- In the table only the claimed row matches the claim.
  have hself (r : QueuedEvent) (hr : r ∈ t.intakeEvents) :
      matchesClaim .inFlight claimed r = decide (r = claimed) := by
    rw [← hstate]
    exact matchesClaim_self hrow hr
  rw [releaseOne, updateClaim, Table.mem_update]
  constructor
  · rintro ⟨r, hr, rfl⟩
    rw [hself r hr]
    by_cases heq : r = claimed
    · exact .inr (by simp [heq])
    · exact .inl (by simpa [heq] using hr)
  · rintro (⟨hr, hne⟩ | rfl)
    · exact ⟨r', hr, by simp [hself r' hr, hne]⟩
    · exact ⟨claimed, hrow, by simp [hself claimed hrow]⟩

theorem stable_releaseBody (claimed : QueuedEvent) : Sql.Stable (releaseBody claimed) :=
  Sql.stable_bind (Sql.stable_statement ..) fun _ => Sql.stable_ok _

theorem releaseClaim_spec (claimed : QueuedEvent) (c : Connection Tables) :
    Performs (releaseClaim claimed) c fun released t' =>
      claimed.state = .inFlight ∧ t' = releaseOne claimed c.data ∧
        (released = true ↔ c.data.intakeEvents.count (matchesClaim .inFlight claimed) = 1) := by
  unfold releaseClaim
  split
  · exact performs_raise _ _
  · next hstate =>
    refine performs_transaction (stable_releaseBody claimed) fun released t' h => ?_
    rw [Sql.exec_transaction_eq_ok (stable_releaseBody claimed)] at h
    simp only [releaseBody, Sql.exec_statement_bind, Sql.exec_pure, Prod.mk.injEq,
      Except.ok.injEq, Finish.commit.injEq, reduceCtorEq, false_and, exists_false, or_false] at h
    obtain ⟨rfl, rfl⟩ := h
    exact ⟨by simpa using hstate, rfl, by simp [updateClaim]⟩

/-! ## Settling -/

/-- A decision carries a reason exactly when it rejects. -/
def DeliveryDecision.WellFormed (d : DeliveryDecision) : Prop :=
  d.action = .rejected ↔ d.reason ≠ []

/-- The quarantined form of a claimed row. -/
def quarantineRow (now : Bytes) (row : QueuedEvent) (reason : Bytes) : QuarantinedEvent :=
  ⟨row.event, row.attemptCount, reason, now⟩

/-- One decision carried out, whatever the tables hold. -/
def settleOne (now : Bytes) (settled : QueuedEvent × DeliveryDecision) (t : Tables) : Tables where
  intakeEvents := (settleRow settled.1 settled.2.action t).2.intakeEvents
  quarantinedEvents :=
    if settled.2.action = .rejected then
      (t.quarantinedEvents.insert (quarantineRow now settled.1 settled.2.reason)).getD
        t.quarantinedEvents
    else t.quarantinedEvents

/-- What `applyOne` checks. -/
structure Settleable (settled : QueuedEvent × DeliveryDecision) (t : Tables) : Prop where
  state : settled.1.state = .inFlight
  attempt : 0 < settled.1.attemptCount
  decision : settled.2.WellFormed
  present : ∃ r ∈ t.intakeEvents, matchesClaim .inFlight settled.1 r = true
  fresh : settled.2.action = .rejected →
    ∀ q ∈ t.quarantinedEvents, identity q.event ≠ identity settled.1.event

theorem stable_quarantineIfRejected (now : Bytes) (row : QueuedEvent) (d : DeliveryDecision) :
    Sql.Stable (quarantineIfRejected now row d) := by
  unfold quarantineIfRejected
  split
  · split
    · exact Sql.stable_raise _
    · exact Sql.stable_statement ..
  · split
    · exact Sql.stable_raise _
    · exact Sql.stable_ok _

theorem stable_applyOne (now : Bytes) (settled : QueuedEvent × DeliveryDecision) :
    Sql.Stable (applyOne now settled) := by
  unfold applyOne
  split
  · exact Sql.stable_raise _
  · refine Sql.stable_bind (stable_quarantineIfRejected ..) fun _ =>
      Sql.stable_bind (Sql.stable_statement ..) fun changes => ?_
    split
    · exact Sql.stable_ok _
    · exact Sql.stable_raise _

theorem quarantineIfRejected_exec {now : Bytes} {row : QueuedEvent} {d : DeliveryDecision}
    {t t' : Tables} :
    Sql.exec (quarantineIfRejected now row d) t = (.ok (), t') ↔
      d.WellFormed ∧
      (d.action = .rejected → ∀ q ∈ t.quarantinedEvents, identity q.event ≠ identity row.event) ∧
      t' = { t with quarantinedEvents := (settleOne now (row, d) t).quarantinedEvents } := by
  unfold quarantineIfRejected settleOne
  by_cases hrejected : d.action = .rejected
  · by_cases hreason : d.reason = []
    · simp [hrejected, hreason, DeliveryDecision.WellFormed]
    · simp only [hrejected, if_true, hreason, if_false, Sql.exec_statement, insertQuarantine,
        quarantineRow, DeliveryDecision.WellFormed, ne_eq, not_false_eq_true, true_and,
        forall_const]
      cases hi : t.quarantinedEvents.insert ⟨row.event, row.attemptCount, d.reason, now⟩ with
      | none =>
        -- the primary key of quarantined_events refuses a second row
        obtain ⟨q, hq, hid⟩ := Table.insert_eq_none.mp hi
        simp only [Prod.mk.injEq, reduceCtorEq, false_and, false_iff, not_and]
        exact fun hfresh => absurd hid (hfresh q hq)
      | some quarantine =>
        have hfresh := (Table.insert_eq_some.mp hi).1
        simp only [Prod.mk.injEq, true_and, Option.getD_some]
        exact ⟨fun h => ⟨hfresh, h.symm⟩, fun h => h.2.symm⟩
  · by_cases hreason : d.reason = []
    · simp only [hrejected, hreason, DeliveryDecision.WellFormed, if_false, ne_eq,
        not_true_eq_false, Sql.exec_ok, Prod.mk.injEq, true_and, false_implies, iff_self]
      exact eq_comm
    · simp [hrejected, hreason, DeliveryDecision.WellFormed]

theorem settleRow_count {row : QueuedEvent} {action : DeliveryAction} {t : Tables} :
    (settleRow row action t).1 = 1 ↔
      ∃ r ∈ t.intakeEvents, matchesClaim .inFlight row r = true := by
  have hkey (r : QueuedEvent) (h : matchesClaim .inFlight row r = true) :
      identity r.event = identity row.event := (matchesClaim_iff.mp h).1
  have hcount : (settleRow row action t).1 =
      t.intakeEvents.count (matchesClaim .inFlight row) := by
    unfold settleRow
    split <;> rfl
  rw [hcount, Table.count_eq_one_iff hkey]

/-- One round settles its row exactly when the row is as claimed. -/
theorem applyOne_exec {now : Bytes} {settled : QueuedEvent × DeliveryDecision} {t t' : Tables} :
    Sql.exec (applyOne now settled) t = (.ok (), t') ↔
      Settleable settled t ∧ t' = settleOne now settled t := by
  unfold applyOne
  by_cases hclaim : settled.1.state ≠ .inFlight ∨ settled.1.attemptCount ≤ 0
  · rw [if_pos hclaim]
    simp only [Sql.exec_raise, Prod.mk.injEq, reduceCtorEq, false_and, false_iff, not_and]
    intro h
    have := h.attempt
    rcases hclaim with hstate | hattempt
    · exact absurd h.state hstate
    · omega
  · rw [if_neg hclaim, Sql.exec_bind_eq_ok (stable_quarantineIfRejected ..)]
    simp only [not_or, not_not, Int.not_le] at hclaim
    -- The row is settled last, and one changed row is what the code insists on.
    have hdone (q : QuarantineTable) :
        Sql.exec (Sql.statement 6 (fun t => .ok (settleRow settled.1 settled.2.action t)) >>=
            fun changes => if changes = 1 then Sql.ok ()
              else Sql.raise "delivery claim changed before outcome was applied")
          { t with quarantinedEvents := q } = (.ok (), t') ↔
        (∃ r ∈ t.intakeEvents, matchesClaim .inFlight settled.1 r = true) ∧
          t' = ⟨(settleRow settled.1 settled.2.action t).2.intakeEvents, q⟩ := by
      have htables : (settleRow settled.1 settled.2.action { t with quarantinedEvents := q }).2 =
          ⟨(settleRow settled.1 settled.2.action t).2.intakeEvents, q⟩ := by
        unfold settleRow
        split <;> rfl
      have hcount : (settleRow settled.1 settled.2.action { t with quarantinedEvents := q }).1 = 1 ↔
          ∃ r ∈ t.intakeEvents, matchesClaim .inFlight settled.1 r = true := settleRow_count
      rw [Sql.exec_statement_bind, ← hcount]
      simp only [htables]
      split
      · next h =>
        simp only [h, Sql.exec_ok, Prod.mk.injEq, true_and]
        exact eq_comm
      · next h => simp only [h, Sql.exec_raise, Prod.mk.injEq, reduceCtorEq, false_and]
    constructor
    · rintro ⟨⟨⟩, _, hquarantine, hrest⟩
      obtain ⟨hdecision, hfresh, rfl⟩ := quarantineIfRejected_exec.mp hquarantine
      obtain ⟨hpresent, rfl⟩ := (hdone _).mp hrest
      exact ⟨⟨hclaim.1, hclaim.2, hdecision, hpresent, hfresh⟩, rfl⟩
    · rintro ⟨h, rfl⟩
      exact ⟨(), _, quarantineIfRejected_exec.mpr ⟨h.decision, h.fresh, rfl⟩,
        (hdone _).mpr ⟨h.present, rfl⟩⟩

/-! ### Rows as Claimed -/

/-- The queue rows once a row that is as claimed is settled. -/
theorem mem_settleOne_intake {now : Bytes} {claimed : QueuedEvent} {d : DeliveryDecision}
    {t : Tables} {r' : QueuedEvent} (hrow : claimed ∈ t.intakeEvents)
    (hstate : claimed.state = .inFlight) :
    r' ∈ (settleOne now (claimed, d) t).intakeEvents ↔
      (r' ∈ t.intakeEvents ∧ r' ≠ claimed) ∨ (d.action = .retry ∧ r' = releaseRow claimed) := by
  unfold settleOne settleRow
  by_cases hretry : d.action = .retry
  · simp only [hretry, if_true, true_and]
    exact mem_releaseOne hrow hstate
  · simp only [hretry, if_false, false_and, or_false, deleteClaim, Table.mem_delete]
    refine and_congr_right fun hr => ?_
    rw [← hstate, matchesClaim_self hrow hr]
    simp

/-- The quarantine rows once a row is settled. -/
theorem mem_settleOne_quarantine {now : Bytes} {settled : QueuedEvent × DeliveryDecision}
    {t : Tables} {q : QuarantinedEvent} (h : Settleable settled t) :
    q ∈ (settleOne now settled t).quarantinedEvents ↔
      q ∈ t.quarantinedEvents ∨
        (settled.2.action = .rejected ∧ q = quarantineRow now settled.1 settled.2.reason) := by
  unfold settleOne
  by_cases hrejected : settled.2.action = .rejected
  · simp only [hrejected, if_true, true_and]
    cases hi : t.quarantinedEvents.insert (quarantineRow now settled.1 settled.2.reason) with
    | none =>
      obtain ⟨q', hq', hid⟩ := Table.insert_eq_none.mp hi
      exact absurd hid (h.fresh hrejected q' hq')
    | some quarantine => exact Table.mem_insert hi
  · simp [hrejected]

/-- All decisions carried out in turn. -/
def settleAll (now : Bytes) (settled : List (QueuedEvent × DeliveryDecision)) (t : Tables) :
    Tables :=
  settled.foldl (fun t s => settleOne now s t) t

/-- Every round finds its row as claimed. -/
def AllSettleable (now : Bytes) : List (QueuedEvent × DeliveryDecision) → Tables → Prop
  | [], _ => True
  | s :: rest, t => Settleable s t ∧ AllSettleable now rest (settleOne now s t)

/-- No round puts a row in flight. -/
theorem mem_of_inFlight_settleOne {now : Bytes} {settled : QueuedEvent × DeliveryDecision}
    {t : Tables} {r : QueuedEvent} (hr : r ∈ (settleOne now settled t).intakeEvents)
    (hstate : r.state = .inFlight) : r ∈ t.intakeEvents := by
  unfold settleOne settleRow at hr
  simp only at hr
  split at hr
  · rw [updateClaim, Table.mem_update] at hr
    obtain ⟨r₀, hr₀, rfl⟩ := hr
    by_cases hmatch : matchesClaim .inFlight settled.1 r₀ = true
    · simp [hmatch, releaseRow] at hstate
    · simpa [hmatch] using hr₀
  · exact (Table.mem_delete.mp hr).1

/-- A claim without its row is settled in no round. -/
theorem ne_of_allSettleable {now : Bytes} {settled : List (QueuedEvent × DeliveryDecision)}
    {t : Tables} {c : QueuedEvent} (h : AllSettleable now settled t)
    (habsent : ∀ r ∈ t.intakeEvents, matchesClaim .inFlight c r = false) :
    ∀ s ∈ settled, s.1 ≠ c := by
  induction settled generalizing t with
  | nil => simp
  | cons s rest ih =>
    obtain ⟨hone, hrest⟩ := h
    rw [List.forall_mem_cons]
    constructor
    · rintro rfl
      obtain ⟨r, hr, hmatch⟩ := hone.present
      simp [habsent r hr] at hmatch
    · refine ih hrest fun r hr => ?_
      by_contra hmatch
      -- Settling a row puts none in flight, so a match was there before.
      have hinFlight := (matchesClaim_iff.mp (Bool.not_eq_false _ ▸ hmatch)).2.1
      exact hmatch (habsent r (mem_of_inFlight_settleOne hr hinFlight))

/-- A batch that is settled holds no claim twice. -/
theorem ne_of_allSettleable_cons {now : Bytes} {claimed : QueuedEvent} {d : DeliveryDecision}
    {rest : List (QueuedEvent × DeliveryDecision)} {t : Tables}
    (h : AllSettleable now ((claimed, d) :: rest) t) (hrow : claimed ∈ t.intakeEvents) :
    ∀ s ∈ rest, s.1 ≠ claimed := by
  obtain ⟨hone, hrest⟩ := h
  refine ne_of_allSettleable hrest fun r hr => ?_
  by_contra hmatch
  obtain ⟨hid, hinFlight, -⟩ := matchesClaim_iff.mp (Bool.not_eq_false _ ▸ hmatch)
  have hmem := mem_of_inFlight_settleOne hr hinFlight
  obtain rfl := Table.eq_of_key_eq hmem hrow hid
  -- settling the row has removed it or made it pending
  rcases (mem_settleOne_intake hrow hone.state).mp hr with ⟨-, hne⟩ | ⟨-, heq⟩
  · exact hne rfl
  · rw [heq] at hinFlight
    simp [releaseRow] at hinFlight

/-- The other claims of the batch are untouched by the first round. -/
theorem mem_settleOne_of_mem {now : Bytes} {claimed : QueuedEvent} {d : DeliveryDecision}
    {rest : List (QueuedEvent × DeliveryDecision)} {t : Tables}
    (h : AllSettleable now ((claimed, d) :: rest) t)
    (hrows : ∀ s ∈ (claimed, d) :: rest, s.1 ∈ t.intakeEvents) :
    ∀ s ∈ rest, s.1 ∈ (settleOne now (claimed, d) t).intakeEvents := by
  rw [List.forall_mem_cons] at hrows
  intro s hs
  exact (mem_settleOne_intake hrows.1 h.1.state).mpr
    (.inl ⟨hrows.2 s hs, ne_of_allSettleable_cons h hrows.1 s hs⟩)

/-- A batch of rows as claimed that is settled has one decision an identity. -/
theorem nodup_of_allSettleable {now : Bytes} {settled : List (QueuedEvent × DeliveryDecision)}
    {t : Tables} (h : AllSettleable now settled t) (hrows : ∀ s ∈ settled, s.1 ∈ t.intakeEvents) :
    (settled.map fun s => identity s.1.event).Nodup := by
  induction settled generalizing t with
  | nil => simp
  | cons s rest ih =>
    obtain ⟨claimed, d⟩ := s
    rw [List.map_cons, List.nodup_cons]
    refine ⟨fun hmem => ?_, ih h.2 (mem_settleOne_of_mem h hrows)⟩
    obtain ⟨s, hs, hid⟩ := List.mem_map.mp hmem
    rw [List.forall_mem_cons] at hrows
    exact ne_of_allSettleable_cons h hrows.1 s hs (Table.eq_of_key_eq (hrows.2 s hs) hrows.1 hid)

/-- The queue rows once rows that are as claimed are settled together. -/
theorem mem_settleAll_intake {now : Bytes} {settled : List (QueuedEvent × DeliveryDecision)}
    {t : Tables} {r' : QueuedEvent} (h : AllSettleable now settled t)
    (hrows : ∀ s ∈ settled, s.1 ∈ t.intakeEvents) :
    r' ∈ (settleAll now settled t).intakeEvents ↔
      (r' ∈ t.intakeEvents ∧ ∀ s ∈ settled, r' ≠ s.1) ∨
        ∃ s ∈ settled, s.2.action = .retry ∧ r' = releaseRow s.1 := by
  induction settled generalizing t with
  | nil => simp [settleAll]
  | cons s rest ih =>
    obtain ⟨claimed, d⟩ := s
    have hrest := mem_settleOne_of_mem h hrows
    rw [List.forall_mem_cons] at hrows
    have hone {x : QueuedEvent} : x ∈ (settleOne now (claimed, d) t).intakeEvents ↔ _ :=
      mem_settleOne_intake hrows.1 h.1.state
    have hdistinct := ne_of_allSettleable_cons h hrows.1
    have hrelease : ∀ s ∈ rest, releaseRow claimed ≠ s.1 := fun s hs heq => by
      -- the claims are in flight, a released row is not
      have hmem : s.1 ∈ t.intakeEvents := hrows.2 s hs
      have hid : identity s.1.event = identity claimed.event := by rw [← heq]; rfl
      exact hdistinct s hs (Table.eq_of_key_eq hmem hrows.1 hid)
    rw [settleAll, List.foldl_cons, ← settleAll, ih h.2 hrest, hone]
    simp only [List.forall_mem_cons, List.exists_mem_cons_iff]
    constructor
    · rintro (⟨⟨hmem, hne⟩ | ⟨hretry, rfl⟩, hall⟩ | hexists)
      · exact .inl ⟨hmem, hne, hall⟩
      · exact .inr (.inl ⟨hretry, rfl⟩)
      · exact .inr (.inr hexists)
    · rintro (⟨hmem, hne, hall⟩ | ⟨hretry, rfl⟩ | hexists)
      · exact .inl ⟨.inl ⟨hmem, hne⟩, hall⟩
      · exact .inl ⟨.inr ⟨hretry, rfl⟩, hrelease⟩
      · exact .inr hexists

/-- The quarantine rows once a batch is settled. -/
theorem mem_settleAll_quarantine {now : Bytes} {settled : List (QueuedEvent × DeliveryDecision)}
    {t : Tables} {q : QuarantinedEvent} (h : AllSettleable now settled t) :
    q ∈ (settleAll now settled t).quarantinedEvents ↔
      q ∈ t.quarantinedEvents ∨
        ∃ s ∈ settled, s.2.action = .rejected ∧ q = quarantineRow now s.1 s.2.reason := by
  induction settled generalizing t with
  | nil => simp [settleAll]
  | cons s rest ih =>
    rw [settleAll, List.foldl_cons, ← settleAll, ih h.2, mem_settleOne_quarantine h.1,
      List.exists_mem_cons_iff, or_assoc]

/-- A row as claimed with a well-formed decision, its identity not in quarantine. -/
structure Ready (s : QueuedEvent × DeliveryDecision) (t : Tables) : Prop where
  row : s.1 ∈ t.intakeEvents
  state : s.1.state = .inFlight
  attempt : 0 < s.1.attemptCount
  decision : s.2.WellFormed
  fresh : ∀ q ∈ t.quarantinedEvents, identity q.event ≠ identity s.1.event

theorem Ready.settleable {s : QueuedEvent × DeliveryDecision} {t : Tables} (h : Ready s t) :
    Settleable s t :=
  ⟨h.state, h.attempt, h.decision, ⟨s.1, h.row, by simp [matchesClaim, h.state]⟩, fun _ => h.fresh⟩

/-- A round on one row leaves the others ready. -/
theorem Ready.settleOne {now : Bytes} {s s' : QueuedEvent × DeliveryDecision} {t : Tables}
    (hs : Ready s t) (hs' : Ready s' t) (hne : identity s'.1.event ≠ identity s.1.event) :
    Ready s' (settleOne now s t) where
  row := by
    refine (mem_settleOne_intake hs.row hs.state).mpr (.inl ⟨hs'.row, fun heq => ?_⟩)
    exact hne (by rw [heq])
  state := hs'.state
  attempt := hs'.attempt
  decision := hs'.decision
  fresh := by
    intro q hq
    rcases (mem_settleOne_quarantine hs.settleable).mp hq with hold | ⟨-, rfl⟩
    · exact hs'.fresh q hold
    · exact hne.symm

/-- Ready rows of different identities can be settled together. -/
theorem allSettleable_of_ready {now : Bytes} {settled : List (QueuedEvent × DeliveryDecision)}
    {t : Tables} (hnodup : (settled.map fun s => identity s.1.event).Nodup)
    (hready : ∀ s ∈ settled, Ready s t) : AllSettleable now settled t := by
  induction settled generalizing t with
  | nil => trivial
  | cons s rest ih =>
    rw [List.forall_mem_cons] at hready
    rw [List.map_cons, List.nodup_cons] at hnodup
    refine ⟨hready.1.settleable, ih hnodup.2 fun s' hs' => ?_⟩
    refine hready.1.settleOne (hready.2 s' hs') fun hid => hnodup.1 ?_
    exact hid ▸ List.mem_map_of_mem hs'

theorem applyLoop_exec {now : Bytes} {settled : List (QueuedEvent × DeliveryDecision)}
    {t t' : Tables} :
    Sql.exec (settled.forM (applyOne now)) t = (.ok (), t') ↔
      AllSettleable now settled t ∧ t' = settleAll now settled t := by
  induction settled generalizing t with
  | nil =>
    constructor
    · intro h
      exact ⟨trivial, (Prod.mk.inj h).2.symm⟩
    · rintro ⟨-, rfl⟩
      rfl
  | cons s rest ih =>
    have hcons : (s :: rest).forM (applyOne now) =
        (applyOne now s >>= fun _ => rest.forM (applyOne now)) := rfl
    rw [hcons, Sql.exec_bind_eq_ok (stable_applyOne now s)]
    constructor
    · rintro ⟨⟨⟩, _, hone, hrest⟩
      obtain ⟨h, rfl⟩ := applyOne_exec.mp hone
      obtain ⟨hall, htables⟩ := ih.mp hrest
      exact ⟨⟨h, hall⟩, htables⟩
    · rintro ⟨⟨h, hall⟩, htables⟩
      exact ⟨(), _, applyOne_exec.mpr ⟨h, rfl⟩, ih.mpr ⟨hall, htables⟩⟩

theorem stable_applyBody (now : Bytes) (settled : List (QueuedEvent × DeliveryDecision)) :
    Sql.Stable (applyBody now settled) :=
  Sql.stable_bind (Sql.stable_forM (stable_applyOne now)) fun _ => Sql.stable_ok _

/-- The call's shape: one decision a row, one to `maxBatchSize` rows. -/
def BatchShape (claimed : List QueuedEvent) (decisions : List DeliveryDecision) : Prop :=
  claimed.length = decisions.length ∧ claimed ≠ [] ∧ claimed.length ≤ maxBatchSize

/-- A settlement happens as a whole: every decision of the batch, or none. -/
theorem applyDecisions_exec {now : Bytes} {claimed : List QueuedEvent}
    {decisions : List DeliveryDecision} {t t' : Tables} :
    Sql.exec (applyDecisions now claimed decisions) t = (.ok (), t') ↔
      BatchShape claimed decisions ∧ AllSettleable now (claimed.zip decisions) t ∧
        t' = settleAll now (claimed.zip decisions) t := by
  unfold applyDecisions BatchShape
  split
  · next h =>
    simp only [Sql.exec_raise, Prod.mk.injEq, reduceCtorEq, false_and, false_iff]
    rintro ⟨⟨hlength, hne, hmax⟩, -⟩
    -- lengths that differ, no claim, or more than one batch holds
    rcases h with h | h | h
    · exact h hlength
    · exact hne h
    · omega
  · next h =>
    simp only [not_or, not_not, Nat.not_lt] at h
    rw [Sql.exec_transaction_eq_ok (stable_applyBody ..)]
    simp only [applyBody, Sql.exec_bind_eq_ok (Sql.stable_forM (stable_applyOne now)),
      Sql.exec_pure]
    constructor
    · rintro (⟨⟨⟩, _, hloop, hfinish⟩ | ⟨⟨_, _, _, _, hfinish⟩, -⟩)
      · obtain ⟨hall, rfl⟩ := applyLoop_exec.mp hloop
        exact ⟨h, hall, (Prod.mk.inj hfinish).2.symm⟩
      · simp at hfinish
    · rintro ⟨-, hall, rfl⟩
      exact .inl ⟨(), _, applyLoop_exec.mpr ⟨hall, rfl⟩, rfl⟩

theorem applyDecisions_spec (now : Bytes) (claimed : List QueuedEvent)
    (decisions : List DeliveryDecision) (c : Connection Tables) :
    Performs (applyDecisions now claimed decisions) c fun _ t' =>
      AllSettleable now (claimed.zip decisions) c.data ∧
        t' = settleAll now (claimed.zip decisions) c.data := by
  by_cases h : claimed.length ≠ decisions.length ∨ claimed = [] ∨ maxBatchSize < claimed.length
  · rw [applyDecisions, if_pos h]
    exact performs_raise _ _
  · have heq : applyDecisions now claimed decisions =
        Sql.transaction (applyBody now (claimed.zip decisions)) := by
      rw [applyDecisions, if_neg h]
    rw [heq]
    refine performs_transaction (stable_applyBody ..) fun a t' hexec => ?_
    rw [← heq] at hexec
    exact (applyDecisions_exec.mp hexec).2

/-! ## Opening -/

/-- Every claim is returned to pending. -/
def recoverAll (t : Tables) : Tables :=
  { t with
    intakeEvents := t.intakeEvents.update (fun r => r.state == .inFlight) releaseRow
      identity_releaseRow }

theorem stable_schemaBody : Sql.Stable schemaBody := by
  refine Sql.stable_bind (Sql.stable_query ..) fun invalid => ?_
  split
  · exact Sql.stable_raise _
  · exact Sql.stable_bind (Sql.stable_statement ..) fun _ => Sql.stable_ok _

theorem initializeSchema_exec {t t' : Tables} :
    Sql.exec initializeSchema t = (.ok (), t') ↔
      (∀ r ∈ t.intakeEvents, 0 ≤ r.attemptCount) ∧ t' = recoverAll t := by
  rw [initializeSchema, Sql.exec_transaction_eq_ok stable_schemaBody]
  simp only [schemaBody, Sql.exec_query_bind]
  by_cases h : t.intakeEvents.count (fun r => decide (r.attemptCount < 0)) = 0
  · have hvalid : ∀ r ∈ t.intakeEvents, 0 ≤ r.attemptCount := by
      simpa using Table.count_eq_zero_iff.mp h
    simp only [h, ne_eq, not_true_eq_false, if_false, Sql.exec_statement_bind, Sql.exec_pure]
    constructor
    · rintro (hfinish | ⟨⟨_, hfinish⟩, -⟩)
      · exact ⟨hvalid, (Prod.mk.inj hfinish).2.symm⟩
      · simp at hfinish
    · rintro ⟨-, rfl⟩
      exact .inl rfl
  · -- A row with a negative attempt count stops the start.
    have hinvalid : ¬∀ r ∈ t.intakeEvents, 0 ≤ r.attemptCount := fun hvalid =>
      h (Table.count_eq_zero_iff.mpr fun r hr => by simpa using hvalid r hr)
    simp [h, hinvalid]

theorem mem_recoverAll {t : Tables} {r' : QueuedEvent} :
    r' ∈ (recoverAll t).intakeEvents ↔
      ∃ r ∈ t.intakeEvents, (if r.state = .inFlight then releaseRow r else r) = r' := by
  simp [recoverAll, Table.mem_update]

theorem initializeSchema_spec (c : Connection Tables) :
    Performs initializeSchema c fun _ t' => t' = recoverAll c.data :=
  performs_transaction stable_schemaBody fun _ _ h => (initializeSchema_exec.mp h).2

theorem openStore_spec (c : Connection Tables) :
    Performs openStore c fun _ t' => t' = recoverAll c.data := by
  have hopen := Sql.calls_data 6 c
  unfold openStore
  simp only [Performs, bind, Sql.andThen]
  rcases h : Sql.calls 6 c with ⟨what | _, c'⟩
  · exact .inl ⟨what, rfl, by rw [← hopen, h]⟩
  · rw [h] at hopen
    rw [← hopen]
    exact initializeSchema_spec c'

end EquipmentMonitoring.Store
