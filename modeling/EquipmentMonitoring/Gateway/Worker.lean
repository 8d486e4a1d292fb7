import EquipmentMonitoring.Gateway.Settlement
import EquipmentMonitoring.Gateway.StaleClaims

/-!
# The Forwarder's Worker among Insertions and Restarts (`Forwarder::start`)

A round is made of several transactions with an exchange between them, and the store's lock is
held for one transaction at a time. Here a round is cut at these points, so that insertions, and
the end of the process, can come between any two of its parts.

## Layers

- `Phase`, `Process`, `Turn`: the worker, its process, and what can happen next
- `Process.step`, `Process.run`
- `drainOnce_turns`: an undisturbed round of turns leaves what `drainOnce` leaves
- `Coherent`: exactly the rows the worker holds are in flight
- `step_coherent`: so it stays as long as every release succeeds
- `no_event_stranded_iff`: when a round never begins with a row in flight
- `event_stranded`: a release that fails, and its row, which no later round claims
-/

namespace EquipmentMonitoring.Forwarder

open EquipmentMonitoring.Store EquipmentMonitoring.Telemetry

/-! ## The Worker -/

/-- Where the worker stands in its loop. -/
inductive Phase where
  /-- Between two rounds. -/
  | idle
  /-- The claim is committed; the exchange is still to come. -/
  | claimed (rows : List QueuedEvent)
  /-- The batch is to be returned to pending, after which the round is over or its exception goes
  on. -/
  | releasing (rows : List QueuedEvent)
  /-- The response has been read; its decisions are to be applied. -/
  | applying (rows : List QueuedEvent) (decisions : List DeliveryDecision)
deriving DecidableEq

/-- The rows the worker holds. -/
def Phase.rows : Phase → List QueuedEvent
  | .idle => []
  | .claimed rows => rows
  | .releasing rows => rows
  | .applying rows _ => rows

/-- The gateway: its queue file, whether a process has it open, and where the worker stands. -/
structure Process where
  tables : Tables
  running : Bool
  phase : Phase

inductive Action where
  /-- Another thread inserts an event. -/
  | insert (event : Event)
  /-- `drain_once` is entered. -/
  | claim
  /-- The batch is sent, and a response or an exception comes back. -/
  | exchange (postBatch : Bytes → Except String Response)
  /-- The transaction that is due. -/
  | settle (now : Bytes)
  /-- The process, if there is one, ends here; a new one opens the file. -/
  | restart

/-- What happens next, and which of its calls into the database fail. -/
structure Turn where
  action : Action
  faults : List Bool

/-- What the exchange decides on. -/
def afterExchange [Nlohmann.Library] (rows : List QueuedEvent)
    (postBatch : Bytes → Except String Response) : Phase :=
  match batchJson rows with
  | .error _ => .releasing rows
  | .ok body =>
    match postBatch body with
    | .error _ => .releasing rows
    | .ok response =>
      if response.statusCode ≠ 200 then .releasing rows
      else
        match parseDecisions response.body rows with
        | .error _ => .releasing rows
        | .ok decisions => .applying rows decisions

/-- Where the worker stands after a claim. -/
def afterClaim : Except String (List QueuedEvent) → Phase
  | .ok [] => .idle
  | .ok rows => .claimed rows
  | .error _ => .idle

namespace Process

/-- One turn. Without a process only a restart does anything. -/
def step [Nlohmann.Library] (p : Process) (turn : Turn) : Process :=
  match turn.action, p.running, p.phase with
  | .restart, _, _ =>
    let (outcome, c) := openStore ⟨p.tables, turn.faults⟩
    ⟨c.data, outcome.isOk, .idle⟩
  | .insert event, true, phase => ⟨(insert event ⟨p.tables, turn.faults⟩).2.data, true, phase⟩
  | .claim, true, .idle =>
    let (outcome, c) := claimPending maxBatchSize ⟨p.tables, turn.faults⟩
    ⟨c.data, true, afterClaim outcome⟩
  | .exchange postBatch, true, .claimed rows => { p with phase := afterExchange rows postBatch }
  | .settle now, true, .releasing rows =>
    ⟨(release now rows ⟨p.tables, turn.faults⟩).2.data, true, .idle⟩
  | .settle now, true, .applying rows decisions =>
    match applyDecisions now rows decisions ⟨p.tables, turn.faults⟩ with
    | (.ok _, c) => ⟨c.data, true, .idle⟩
    -- a settlement that fails is rolled back, and the claim released
    | (.error _, c) => ⟨c.data, true, .releasing rows⟩
  | _, _, _ => p

def run [Nlohmann.Library] (p : Process) (turns : List Turn) : Process := turns.foldl step p

/-- A queue file that no process has open. -/
def start (t : Tables) : Process := ⟨t, false, .idle⟩

end Process

/-! ## A Round in Turns -/

theorem queueDepth_data (c : Connection Tables) : (queueDepth c).2.data = c.data := by
  refine Sql.readOnly_statement (fun d _ d' h => ?_) c
  exact (Prod.mk.inj (Except.ok.inj h)).2.symm

/-- Reading the depth and logging it leave the tables alone. -/
theorem logged_data (x : Sql Tables Unit) (f : Nat → Round) (c : Connection Tables) :
    ((do x; let depth ← queueDepth; return f depth : Sql Tables Round) c).2.data = (x c).2.data := by
  simp only [bind, Sql.andThen]
  rcases x c with ⟨_ | _, c'⟩
  · simp only
  · have hdepth := queueDepth_data c'
    rcases hq : queueDepth c' with ⟨_ | _, c''⟩ <;> rw [hq] at hdepth <;> simpa [hq, pure, Sql.ok] using hdepth

theorem deferDelivery_data (now : Bytes) (rows : List QueuedEvent) (level : Level)
    (message : String) (result : RunResult) (c : Connection Tables) :
    (deferDelivery now rows level message result c).2.data = (release now rows c).2.data :=
  logged_data (release now rows) _ c

theorem deliver_data (now : Bytes) (rows : List QueuedEvent) (decisions : List DeliveryDecision)
    (c : Connection Tables) :
    (deliver now rows decisions c).2.data =
      match applyDecisions now rows decisions c with
      | (.ok _, c') => c'.data
      | (.error _, c') => (release now rows c').2.data := by
  refine (logged_data (Sql.orElse (applyDecisions now rows decisions) fun what => do
    release now rows
    Sql.raise what) _ c).trans ?_
  simp only [Sql.orElse, bind, Sql.andThen]
  rcases applyDecisions now rows decisions c with ⟨_ | _, c'⟩
  · simp only
    rcases release now rows c' with ⟨_ | _, c''⟩ <;> rfl
  · simp only

/-- A round without anything in between leaves what `drainOnce` leaves. -/
theorem drainOnce_turns [Nlohmann.Library] (now : Bytes)
    (postBatch : Bytes → Except String Response) (t : Tables) (faults : List Bool) :
    ∃ first second, Process.run ⟨t, true, .idle⟩ [⟨.claim, faults⟩, ⟨.exchange postBatch, []⟩,
        ⟨.settle now, first⟩, ⟨.settle now, second⟩] =
      ⟨(drainOnce now postBatch ⟨t, faults⟩).2.data, true, .idle⟩ := by
  simp only [drainOnce, bind, Sql.andThen]
  rcases hclaim : claimPending maxBatchSize ⟨t, faults⟩ with ⟨what | rows, c⟩
  · exact ⟨[], [], by simp [Process.run, Process.step, hclaim, afterClaim]⟩
  · cases rows with
    | nil => exact ⟨[], [], by simp [Process.run, Process.step, hclaim, afterClaim, forward, Sql.ok]⟩
    | cons row rest =>
      have hstart (first second : List Bool) : Process.run ⟨t, true, .idle⟩ [⟨.claim, faults⟩,
          ⟨.exchange postBatch, []⟩, ⟨.settle now, first⟩, ⟨.settle now, second⟩] =
          Process.run ⟨c.data, true, afterExchange (row :: rest) postBatch⟩
            [⟨.settle now, first⟩, ⟨.settle now, second⟩] := by
        simp [Process.run, Process.step, hclaim, afterClaim]
      -- the release is one turn, and nothing is left to settle in the second
      have hrelease (level : Level) (message : String) (result : RunResult) :
          Process.run ⟨c.data, true, .releasing (row :: rest)⟩
              [⟨.settle now, c.faults⟩, ⟨.settle now, []⟩] =
            ⟨(deferDelivery now (row :: rest) level message result c).2.data, true, .idle⟩ := by
        simp only [Process.run, List.foldl_cons, List.foldl_nil, Process.step, deferDelivery_data]
      simp only [hstart, forward, reduceCtorEq, if_false, afterExchange]
      cases batchJson (row :: rest) with
      | error what => exact ⟨c.faults, [], hrelease ..⟩
      | ok body =>
        simp only [settle]
        cases postBatch body with
        | error what => exact ⟨c.faults, [], hrelease ..⟩
        | ok response =>
          by_cases hstatus : response.statusCode ≠ 200
          · simp only [hstatus, if_true, ne_eq, not_false_eq_true]
            exact ⟨c.faults, [], hrelease ..⟩
          · simp only [hstatus, if_false]
            cases parseDecisions response.body (row :: rest) with
            | error what => exact ⟨c.faults, [], hrelease ..⟩
            | ok decisions =>
              simp only [deliver_data]
              rcases happly : applyDecisions now (row :: rest) decisions c with ⟨what | _, c'⟩
              · exact ⟨c.faults, c'.faults, by simp [Process.run, Process.step, happly]⟩
              · exact ⟨c.faults, [], by simp [Process.run, Process.step, happly]⟩

/-! ## Returning a Batch -/

section Release

variable {now : Bytes} {t : Tables}

/-- Rows in flight can be returned together. -/
theorem allSettleable_retry {rows : List QueuedEvent}
    (hrows : ∀ r ∈ rows, r ∈ t.intakeEvents ∧ r.state = .inFlight ∧ 0 < r.attemptCount)
    (hnodup : (rows.map fun r => identity r.event).Nodup) :
    AllSettleable now (rows.map fun r => (r, retry)) t := by
  induction rows generalizing t with
  | nil => trivial
  | cons r rest ih =>
    rw [List.forall_mem_cons] at hrows
    rw [List.map_cons, List.nodup_cons] at hnodup
    obtain ⟨⟨hrow, hstate, hattempt⟩, hrest⟩ := hrows
    refine ⟨⟨hstate, hattempt, by simp [DeliveryDecision.WellFormed, retry],
      ⟨r, hrow, by simp [matchesClaim, hstate]⟩, fun h => by simp [retry] at h⟩, ?_⟩
    refine ih (fun r' hr' => ⟨?_, (hrest r' hr').2⟩) hnodup.2
    refine (mem_settleOne_intake hrow hstate).mpr (.inl ⟨(hrest r' hr').1, ?_⟩)
    rintro rfl
    exact hnodup.1 (List.mem_map_of_mem hr')

/-- Six calls a row. -/
theorem costs_retry {rows : List QueuedEvent}
    (h : AllSettleable now (rows.map fun r => (r, retry)) t) :
    Sql.Costs (6 * rows.length) ((rows.map fun r => (r, retry)).forM (applyOne now)) t ()
      (settleAll now (rows.map fun r => (r, retry)) t) := by
  induction rows generalizing t with
  | nil => exact Sql.costs_ok () t
  | cons r rest ih =>
    obtain ⟨hone, hrest⟩ := h
    -- A settleable row passes the check on the claim.
    have hclaim : ¬(r.state ≠ .inFlight ∨ r.attemptCount ≤ 0) := by
      have hattempt : 0 < r.attemptCount := hone.attempt
      rintro (hstate | hle)
      · exact hstate hone.state
      · omega
    have hcost : Sql.Costs (0 + (6 + 0)) (applyOne now (r, retry)) t ()
        (settleOne now (r, retry) t) := by
      have hcount : t.intakeEvents.count (matchesClaim .inFlight r) = 1 :=
        (@settleRow_count r .retry t).mpr hone.present
      have hquarantine : quarantineIfRejected now r retry = Sql.ok () := rfl
      rw [applyOne, if_neg hclaim, hquarantine]
      refine Sql.costs_bind (Sql.costs_ok () t) (Sql.costs_bind (Sql.costs_statement rfl) ?_)
      rw [if_pos hcount]
      exact Sql.costs_ok ..
    have hall := Sql.costs_bind (f := fun _ => (rest.map fun r => (r, retry)).forM (applyOne now))
      hcost (ih hrest)
    have hlength : 6 * (r :: rest).length = 6 + 6 * rest.length := by
      rw [List.length_cons]
      omega
    rw [hlength]
    exact hall

/-- How many calls it takes to return a batch. -/
def releaseCalls (rows : List QueuedEvent) : Nat := 6 * rows.length + 2

/-- A batch in flight is returned, unless one of these calls fails. -/
theorem release_costs {rows : List QueuedEvent} (hne : rows ≠ [])
    (hlength : rows.length ≤ maxBatchSize)
    (hrows : ∀ r ∈ rows, r ∈ t.intakeEvents ∧ r.state = .inFlight ∧ 0 < r.attemptCount)
    (hnodup : (rows.map fun r => identity r.event).Nodup) :
    Sql.Costs (releaseCalls rows) (release now rows) t ()
      (settleAll now (rows.map fun r => (r, retry)) t) := by
  have hzip (rows : List QueuedEvent) :
      rows.zip (List.replicate rows.length retry) = rows.map fun r => (r, retry) := by
    induction rows with
    | nil => rfl
    | cons r rest ih => simp [List.replicate_succ, ih]
  have hshape : ¬(rows.length ≠ (List.replicate rows.length retry).length ∨ rows = [] ∨
      maxBatchSize < rows.length) := by
    simp only [List.length_replicate, ne_eq, not_true_eq_false, hne, false_or, not_lt]
    exact hlength
  have hbody : Sql.Costs (6 * rows.length + 0) (applyBody now (rows.map fun r => (r, retry))) t
      (.commit ()) (settleAll now (rows.map fun r => (r, retry)) t) :=
    Sql.costs_bind (costs_retry (allSettleable_retry hrows hnodup)) (Sql.costs_ok ..)
  -- One call to begin, six for a row, one to commit.
  have hcalls : releaseCalls rows = 1 + (6 * rows.length + 0 + 1) := by
    rw [releaseCalls]
    omega
  rw [release, applyDecisions, if_neg hshape, hzip, hcalls]
  exact Sql.costs_transaction hbody

/-- A settlement that covers every row in flight leaves none. -/
theorem settleAll_pending {rows : List QueuedEvent} {decisions : List DeliveryDecision}
    (hlength : rows.length = decisions.length)
    (hinFlight : ∀ r, (r ∈ t.intakeEvents ∧ r.state = .inFlight) ↔ r ∈ rows)
    (h : AllSettleable now (rows.zip decisions) t) :
    ∀ r ∈ (settleAll now (rows.zip decisions) t).intakeEvents, r.state = .pending := by
  have hmem : ∀ s ∈ rows.zip decisions, s.1 ∈ t.intakeEvents := fun s hs =>
    ((hinFlight s.1).mpr (List.of_mem_zip hs).1).1
  intro r hr
  rcases (mem_settleAll_intake h hmem).mp hr with ⟨hold, hne⟩ | ⟨s, -, -, rfl⟩
  · cases hstate : r.state with
    | pending => rfl
    | inFlight =>
      obtain ⟨d, hd⟩ := exists_mem_zip_of_mem hlength.symm ((hinFlight r).mp ⟨hold, hstate⟩)
      exact absurd rfl (hne _ hd)
  · rfl

end Release

/-! ## What the Worker Holds -/

/-- Exactly the rows the worker holds are in flight. -/
structure Coherent (p : Process) : Prop where
  inFlight : ∀ r, (r ∈ p.tables.intakeEvents ∧ r.state = .inFlight) ↔ r ∈ p.phase.rows
  attempts : ∀ r ∈ p.phase.rows, 0 < r.attemptCount
  nodup : (p.phase.rows.map fun r => identity r.event).Nodup
  nonempty : p.phase ≠ .idle → p.phase.rows ≠ []
  length : p.phase.rows.length ≤ maxBatchSize

/-- The release, if one is due, meets no fault. -/
def SparesRelease (p : Process) (turn : Turn) : Prop :=
  match p.running, p.phase, turn.action with
  | true, .releasing rows, .settle _ => Sql.spares (releaseCalls rows) turn.faults = true
  | _, _, _ => True

/-- Without rows in flight the worker may be idle. -/
theorem coherent_idle {t : Tables} {running : Bool}
    (h : ∀ r ∈ t.intakeEvents, r.state = .pending) : Coherent ⟨t, running, .idle⟩ where
  inFlight := by
    intro r
    refine ⟨fun hr => ?_, fun hr => absurd hr (List.not_mem_nil)⟩
    have hpending := h r hr.1
    rw [hr.2] at hpending
    exact absurd hpending (by decide)
  attempts := by simp [Phase.rows]
  nodup := by simp [Phase.rows]
  nonempty h := absurd rfl h
  length := by simp [Phase.rows]

theorem Coherent.pending {p : Process} (h : Coherent p) (hidle : p.phase = .idle) :
    ∀ r ∈ p.tables.intakeEvents, r.state = .pending := by
  intro r hr
  cases hstate : r.state with
  | pending => rfl
  | inFlight =>
    have hmem := (h.inFlight r).mp ⟨hr, hstate⟩
    rw [hidle] at hmem
    simp [Phase.rows] at hmem

/-- Only the tables have changed, and the rows in flight are the same. -/
theorem Coherent.tables {p : Process} (h : Coherent p) {t' : Tables} {running : Bool} {phase : Phase}
    (hrows : phase.rows = p.phase.rows) (hphase : p.phase = .idle → phase = .idle)
    (htables : ∀ r, (r ∈ t'.intakeEvents ∧ r.state = .inFlight) ↔
      (r ∈ p.tables.intakeEvents ∧ r.state = .inFlight)) : Coherent ⟨t', running, phase⟩ where
  inFlight r := by
    rw [htables, h.inFlight]
    simp only [hrows]
  attempts := by simpa only [hrows] using h.attempts
  nodup := by simpa only [hrows] using h.nodup
  nonempty hne := by
    simp only [hrows]
    exact h.nonempty fun hidle => hne (hphase hidle)
  length := by simpa only [hrows] using h.length

theorem afterExchange_rows [Nlohmann.Library] (rows : List QueuedEvent)
    (postBatch : Bytes → Except String Response) :
    (afterExchange rows postBatch).rows = rows := by
  unfold afterExchange
  split
  · rfl
  · split
    · rfl
    · split
      · rfl
      · split <;> rfl

theorem coherent_insert {p : Process} (h : Coherent p) (event : Event) (faults : List Bool) :
    Coherent ⟨(Store.insert event ⟨p.tables, faults⟩).2.data, true, p.phase⟩ := by
  refine h.tables rfl id fun r => ?_
  rcases insert_spec event ⟨p.tables, faults⟩ with ⟨_, -, hdata⟩ | ⟨_, -, heffect⟩
  · rw [hdata]
  · generalize (Store.insert event ⟨p.tables, faults⟩).2.data = t' at heffect ⊢
    cases heffect with
    | inserted _ hinserted =>
      rw [Table.mem_def, hinserted.intake, List.mem_append, List.mem_singleton]
      constructor
      · rintro ⟨hold | rfl, hstate⟩
        · exact ⟨hold, hstate⟩
        · simp at hstate
      · exact fun ⟨hr, hstate⟩ => ⟨.inl hr, hstate⟩
    | known => rfl

/-- A claim that returns has read its rows. -/
theorem claimPending_claims (c : Connection Tables) :
    Performs (claimPending maxBatchSize) c fun rows t' =>
      rows = claimedBatch c.data ∧ t' = claimedTables c.data ∧
        ∀ r ∈ batch c.data, 0 ≤ r.attemptCount :=
  performs_transaction (stable_claimBody _) fun _ _ h => by
    obtain ⟨⟨-, hread⟩, hrows, htables⟩ := claimPending_exec.mp h
    exact ⟨hrows, htables, fun r hr => (hread r hr).1⟩

theorem coherent_claim {t : Tables} (hidle : ∀ r ∈ t.intakeEvents, r.state = .pending)
    (faults : List Bool) :
    Coherent ⟨(claimPending maxBatchSize ⟨t, faults⟩).2.data, true,
      afterClaim (claimPending maxBatchSize ⟨t, faults⟩).1⟩ := by
  rcases claimPending_claims ⟨t, faults⟩ with ⟨_, herr, hdata⟩ | ⟨rows, hok, rfl, hdata, hread⟩
  · rw [herr, hdata]
    exact coherent_idle hidle
  · rw [hok, hdata]
    -- Nothing was in flight before, so what is in flight now is the claimed batch.
    have hrows : (afterClaim (.ok (claimedBatch t))).rows = claimedBatch t := by
      unfold afterClaim
      cases claimedBatch t <;> rfl
    constructor
    · intro r
      rw [hrows, mem_claimedTables]
      constructor
      · rintro ⟨⟨hold, -⟩ | hclaimed, hstate⟩
        · rw [hidle r hold] at hstate
          exact absurd hstate (by decide)
        · exact hclaimed
      · intro hr
        refine ⟨.inr hr, ?_⟩
        obtain ⟨r, -, rfl⟩ := List.mem_map.mp hr
        rfl
    · intro r hr
      rw [hrows] at hr
      obtain ⟨r, hmem, rfl⟩ := List.mem_map.mp hr
      have := hread r hmem
      simp only [claimRow]
      omega
    · rw [hrows, claimedBatch, List.map_map]
      exact batch_nodup t
    · rw [hrows]
      intro hne
      unfold afterClaim at hne
      cases hbatch : claimedBatch t with
      | nil => simp [hbatch] at hne
      | cons r rest => simp
    · rw [hrows]
      simp only [claimedBatch, List.length_map, batch, oldestPending, List.length_take]
      omega

theorem coherent_restart (t : Tables) (faults : List Bool)
    (hrunning : (openStore ⟨t, faults⟩).1.isOk = true) :
    Coherent ⟨(openStore ⟨t, faults⟩).2.data, (openStore ⟨t, faults⟩).1.isOk, .idle⟩ := by
  rcases openStore_spec ⟨t, faults⟩ with ⟨_, herr, -⟩ | ⟨_, -, hdata⟩
  · rw [herr] at hrunning
    exact absurd hrunning Bool.false_ne_true
  · rw [hdata]
    refine coherent_idle fun r' hr' => ?_
    obtain ⟨r, -, rfl⟩ := mem_recoverAll.mp hr'
    split
    · rfl
    · next hstate =>
      cases hr : r.state with
      | pending => rfl
      | inFlight => exact absurd hr hstate

/-- The rows of a release that is due, as `release_costs` wants them. -/
theorem Coherent.releases {p : Process} (h : Coherent p) {rows : List QueuedEvent} {now : Bytes}
    (hphase : p.phase = .releasing rows) :
    Sql.Costs (releaseCalls rows) (release now rows) p.tables ()
      (settleAll now (rows.map fun r => (r, retry)) p.tables) := by
  have hrows : p.phase.rows = rows := by rw [hphase]; rfl
  have hinFlight := h.inFlight
  rw [hrows] at hinFlight
  refine release_costs ?_ ?_ (fun r hr => ?_) ?_
  · exact hrows ▸ h.nonempty (by rw [hphase]; exact Phase.noConfusion)
  · exact hrows ▸ h.length
  · obtain ⟨hmem, hstate⟩ := (hinFlight r).mpr hr
    exact ⟨hmem, hstate, h.attempts r (hrows ▸ hr)⟩
  · exact hrows ▸ h.nodup

theorem coherent_settled {rows : List QueuedEvent} {t : Tables} {now : Bytes}
    {decisions : List DeliveryDecision} {running : Bool} (hlength : rows.length = decisions.length)
    (hinFlight : ∀ r, (r ∈ t.intakeEvents ∧ r.state = .inFlight) ↔ r ∈ rows)
    (h : AllSettleable now (rows.zip decisions) t) :
    Coherent ⟨settleAll now (rows.zip decisions) t, running, .idle⟩ :=
  coherent_idle (settleAll_pending hlength hinFlight h)

/-- A release that is due leaves no row in flight, if it is spared. -/
theorem release_coherent {t : Tables} {rows : List QueuedEvent} {now : Bytes} {faults : List Bool}
    (h : Coherent ⟨t, true, .releasing rows⟩)
    (hspares : Sql.spares (releaseCalls rows) faults = true) :
    Coherent ⟨(release now rows ⟨t, faults⟩).2.data, true, .idle⟩ := by
  have hrun := (@Coherent.releases _ h rows now rfl).spared faults hspares
  rcases applyDecisions_spec now rows (List.replicate rows.length retry) ⟨t, faults⟩ with
    ⟨_, herr, -⟩ | ⟨_, -, hall, hdata⟩
  · have herr' : (release now rows ⟨t, faults⟩).1 = .error _ := herr
    rw [hrun] at herr'
    exact absurd herr' (by simp)
  · have hdata' : (release now rows ⟨t, faults⟩).2.data = _ := hdata
    rw [hdata']
    exact coherent_settled (by simp) h.inFlight hall

theorem apply_coherent [Nlohmann.Library] {t : Tables} {rows : List QueuedEvent}
    {decisions : List DeliveryDecision} {now : Bytes} {faults : List Bool}
    (h : Coherent ⟨t, true, .applying rows decisions⟩) :
    Coherent (Process.step ⟨t, true, .applying rows decisions⟩ ⟨.settle now, faults⟩) := by
  simp only [Process.step]
  rcases hrun : applyDecisions now rows decisions ⟨t, faults⟩ with ⟨what | _, c⟩
  · -- the transaction was rolled back, and the batch is still in flight
    have hdata : c.data = t := by
      rcases applyDecisions_spec now rows decisions ⟨t, faults⟩ with ⟨_, -, hdata⟩ | ⟨_, hok, -⟩
      · rwa [hrun] at hdata
      · simp [hrun] at hok
    exact h.tables rfl (fun hidle => Phase.noConfusion hidle) fun r => by rw [hdata]
  · have hlength := applyDecisions_shape (c := ⟨t, faults⟩) (by rw [hrun])
    rcases applyDecisions_spec now rows decisions ⟨t, faults⟩ with ⟨_, herr, -⟩ | ⟨_, -, hall, hdata⟩
    · simp [hrun] at herr
    · have htables : c.data = settleAll now (rows.zip decisions) t := by rwa [hrun] at hdata
      simp only [htables]
      exact coherent_settled hlength h.inFlight hall

/-- One turn, if it spares the release that may be due. -/
theorem step_coherent [Nlohmann.Library] {p : Process} {turn : Turn}
    (h : p.running = true → Coherent p) (hspares : SparesRelease p turn) :
    (p.step turn).running = true → Coherent (p.step turn) := by
  obtain ⟨t, running, phase⟩ := p
  obtain ⟨action, faults⟩ := turn
  -- a process that is down holds no claim: only the restart makes it run
  cases running with
  | false =>
    cases action with
    | restart => exact fun hrunning => coherent_restart t faults hrunning
    | _ => exact fun hrunning => absurd hrunning Bool.false_ne_true
  | true =>
    intro hrunning
    have hcoherent := h rfl
    cases action with
    | restart => exact coherent_restart t faults hrunning
    | insert event => exact coherent_insert hcoherent event faults
    | claim =>
      cases phase with
      | idle => exact coherent_claim (hcoherent.pending rfl) faults
      | _ => exact hcoherent
    | exchange postBatch =>
      cases phase with
      | claimed rows =>
        exact hcoherent.tables (afterExchange_rows rows postBatch)
          (fun hidle => Phase.noConfusion hidle) fun _ => Iff.rfl
      | _ => exact hcoherent
    | settle now =>
      cases phase with
      | releasing rows => exact release_coherent hcoherent hspares
      | applying rows decisions => exact apply_coherent hcoherent
      | _ => exact hcoherent

/-- A release that fails leaves its batch in flight while the worker begins a new round. -/
theorem step_strands [Nlohmann.Library] {p : Process} {turn : Turn}
    (h : p.running = true → Coherent p) (hfails : ¬SparesRelease p turn) :
    (p.step turn).running = true ∧ (p.step turn).phase = .idle ∧
      ∃ r ∈ (p.step turn).tables.intakeEvents, r.state = .inFlight := by
  obtain ⟨t, running, phase⟩ := p
  obtain ⟨action, faults⟩ := turn
  unfold SparesRelease at hfails
  split at hfails
  · next rows now hrunning hphase haction =>
    simp only at hrunning hphase haction
    subst hrunning hphase haction
    have hcoherent := h rfl
    obtain ⟨what, herr⟩ := (@Coherent.releases _ hcoherent rows now rfl).hit faults (by simpa using hfails)
    -- the transaction was rolled back
    have hdata : (release now rows ⟨t, faults⟩).2.data = t := by
      rcases applyDecisions_spec now rows (List.replicate rows.length retry) ⟨t, faults⟩ with
        ⟨_, -, hdata⟩ | ⟨_, hok, -⟩
      · exact hdata
      · have hok' : (release now rows ⟨t, faults⟩).1 = .ok _ := hok
        simp [herr] at hok'
    obtain ⟨r, rest, hrows⟩ := List.exists_cons_of_ne_nil
      (hcoherent.nonempty fun hidle => Phase.noConfusion hidle)
    have hr : r ∈ rows := by
      have : r ∈ (Phase.releasing rows).rows := by rw [hrows]; exact List.mem_cons_self ..
      exact this
    obtain ⟨hmem, hstate⟩ := (hcoherent.inFlight r).mpr hr
    refine ⟨rfl, rfl, r, ?_, hstate⟩
    simp only [Process.step, hdata]
    exact hmem
  · exact absurd trivial hfails

/-! ## Stranded Rows -/

/-- When a round is about to begin, no row is in flight. -/
def NoneStranded (p : Process) : Prop :=
  p.running = true → p.phase = .idle → ∀ r ∈ p.tables.intakeEvents, r.state ≠ .inFlight

/-- The process is as stated from the start of the run to its end. -/
def Always [Nlohmann.Library] (holds : Process → Prop) : Process → List Turn → Prop
  | p, [] => holds p
  | p, turn :: rest => holds p ∧ Always holds (p.step turn) rest

/-- Every turn is taken as stated. -/
def EachTurn [Nlohmann.Library] (takes : Process → Turn → Prop) : Process → List Turn → Prop
  | _, [] => True
  | p, turn :: rest => takes p turn ∧ EachTurn takes (p.step turn) rest

theorem Always.head [Nlohmann.Library] {holds : Process → Prop} {p : Process} {turns : List Turn}
    (h : Always holds p turns) : holds p := by
  cases turns with
  | nil => exact h
  | cons turn rest => exact h.1

theorem noneStranded_of_coherent {p : Process} (h : p.running = true → Coherent p) :
    NoneStranded p := by
  intro hrunning hidle r hr hstate
  rw [(h hrunning).pending hidle r hr] at hstate
  exact absurd hstate (by decide)

theorem run_stranded_iff [Nlohmann.Library] {p : Process} {turns : List Turn}
    (h : p.running = true → Coherent p) :
    Always NoneStranded p turns ↔ EachTurn SparesRelease p turns := by
  induction turns generalizing p with
  | nil => exact iff_of_true (noneStranded_of_coherent h) trivial
  | cons turn rest ih =>
    by_cases hspares : SparesRelease p turn
    · have hrest := ih (step_coherent h hspares)
      exact and_congr (iff_of_true (noneStranded_of_coherent h) hspares) hrest
    · refine iff_of_false (fun halways => ?_) fun heach => hspares heach.1
      obtain ⟨hrunning, hidle, r, hr, hstate⟩ := step_strands h hspares
      exact halways.2.head hrunning hidle r hr hstate

/-- On any queue file, in any run of insertions, rounds with arbitrary exchanges, and restarts,
with faults anywhere: rounds always begin without a row in flight exactly when no release that is
due meets a fault. -/
theorem no_event_stranded_iff [Nlohmann.Library] (t : Tables) (turns : List Turn) :
    Always NoneStranded (Process.start t) turns ↔
      EachTurn SparesRelease (Process.start t) turns :=
  run_stranded_iff fun hrunning => absurd hrunning Bool.false_ne_true

/-- The backend cannot be reached, and the release that follows fails on its first call. -/
def strandingTurns : List Turn :=
  [⟨.restart, []⟩,
    ⟨.insert ⟨ascii "d1", ascii "b1", 7, ascii "payload", ascii "noon"⟩, []⟩,
    ⟨.claim, []⟩, ⟨.exchange fun _ => .error "connect", []⟩, ⟨.settle [], [true]⟩]

/-- The next rounds find the queue empty, and the row stays in flight. -/
theorem event_stranded :
    ¬NoneStranded (Process.run (Process.start Tables.empty) strandingTurns) ∧
      (Process.run (Process.start Tables.empty) (strandingTurns ++ [⟨.claim, []⟩])).phase = .idle ∧
      (Process.run (Process.start Tables.empty)
        (strandingTurns ++ [⟨.claim, []⟩])).tables.intakeEvents.rows.map QueuedEvent.state =
          [.inFlight] := by
  refine ⟨fun h => ?_, by decide +kernel, by decide +kernel⟩
  have hrows : (Process.run (Process.start Tables.empty) strandingTurns).tables.intakeEvents.rows.map
      QueuedEvent.state = [.inFlight] := by
    decide +kernel
  obtain ⟨r, hr, hstate⟩ := List.mem_map.mp (hrows ▸ List.mem_singleton_self QueueState.inFlight)
  exact h (by decide +kernel) (by decide +kernel) r hr hstate

end EquipmentMonitoring.Forwarder
