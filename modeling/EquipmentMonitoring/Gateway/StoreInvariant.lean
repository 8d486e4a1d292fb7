import EquipmentMonitoring.Gateway.StoreSpec

/-!
# The Queue over Whole Runs

A store is opened, used, closed or lost, and opened again; any call into the database may fail on
the way. Claims are values: `claimPending` hands them out, and a release or a settlement takes
them back.

## Key Results

- `Evolves`: what any operation may do to the two tables
- `step_sound`: every call keeps the invariant and evolves the tables
- `run_safe`: content and attempt counts along a run
- `store_invariant`: the guarantees of the queue, at every point of every run
-/

namespace EquipmentMonitoring.Store

open EquipmentMonitoring.Telemetry

/-! ## Evolution of the Tables -/

/-- No identity is at once queued and in quarantine. -/
def NoOverlap (t : Tables) : Prop :=
  ∀ r ∈ t.intakeEvents, ∀ q ∈ t.quarantinedEvents, identity r.event ≠ identity q.event

/-- The event is recorded, queued or in quarantine. -/
def Holds (t : Tables) (e : Event) : Prop :=
  (∃ r ∈ t.intakeEvents, r.event = e) ∨ ∃ q ∈ t.quarantinedEvents, q.event = e

/-- What an operation may do: `new` events are queued, `claimed` identities count one attempt
more, `gone` ones leave the queue, and only those may enter quarantine, as they were queued. -/
structure Evolves (new : List Event) (claimed gone : List Identity) (t t' : Tables) : Prop where
  fresh : ∀ e ∈ new, ¬Recorded t (identity e) ∧ 0 ≤ e.sequenceNumber
  intake : ∀ r' ∈ t'.intakeEvents, (r'.event ∈ new ∧ r'.attemptCount = 0) ∨
    ∃ r ∈ t.intakeEvents, r.event = r'.event ∧
      r'.attemptCount = r.attemptCount + if identity r.event ∈ claimed then 1 else 0
  leaves : ∀ r' ∈ t'.intakeEvents, identity r'.event ∉ gone
  stays : ∀ r ∈ t.intakeEvents, identity r.event ∉ gone →
    ∃ r' ∈ t'.intakeEvents, identity r'.event = identity r.event
  quarantine : ∀ q ∈ t'.quarantinedEvents, q ∈ t.quarantinedEvents ∨
    ∃ r ∈ t.intakeEvents, r.event = q.event ∧ identity q.event ∈ gone
  quarantined : ∀ q ∈ t.quarantinedEvents, q ∈ t'.quarantinedEvents

namespace Evolves

variable {new : List Event} {claimed gone : List Identity} {t t' : Tables}

theorem refl (t : Tables) : Evolves [] [] [] t t where
  fresh := by simp
  intake r' hr' := .inr ⟨r', hr', rfl, by simp⟩
  leaves := by simp
  stays r hr _ := ⟨r, hr, rfl⟩
  quarantine q hq := .inl hq
  quarantined q hq := hq

/-- A quarantine row never meets a queue row: the one it was made from is gone. -/
theorem noOverlap (h : Evolves new claimed gone t t') (hno : NoOverlap t) : NoOverlap t' := by
  intro r' hr' q hq hid
  rcases h.quarantine q hq with hold | ⟨r, hr, hevent, hgone⟩
  · rcases h.intake r' hr' with ⟨hnew, -⟩ | ⟨r, hr, hevent, -⟩
    · exact (h.fresh _ hnew).1 (.inr ⟨q, hold, hid.symm⟩)
    · exact hno r hr q hold (by rw [hevent, hid])
  · exact h.leaves r' hr' (hid ▸ hgone)

/-- What is recorded, and stays recorded, keeps its content. -/
theorem holds (h : Evolves new claimed gone t t') (hno : NoOverlap t) {e : Event} (he : Holds t e)
    (hrecorded : Recorded t' (identity e)) : Holds t' e := by
  rcases he with ⟨r, hr, rfl⟩ | ⟨q, hq, rfl⟩
  · rcases hrecorded with ⟨r', hr', hid⟩ | ⟨q, hq, hid⟩
    · rcases h.intake r' hr' with ⟨hnew, -⟩ | ⟨r₀, hr₀, hevent, -⟩
      · exact absurd (.inl ⟨r, hr, hid.symm⟩) (h.fresh _ hnew).1
      · have heq : r₀ = r := Table.eq_of_key_eq hr₀ hr (by rw [hevent, hid])
        exact .inl ⟨r', hr', by rw [← hevent, heq]⟩
    · rcases h.quarantine q hq with hold | ⟨r₀, hr₀, hevent, -⟩
      · exact absurd hid.symm (hno r hr q hold)
      · have heq : r₀ = r := Table.eq_of_key_eq hr₀ hr (by rw [hevent, hid])
        exact .inr ⟨q, hq, by rw [← hevent, heq]⟩
  · exact .inr ⟨q, h.quarantined q hq, rfl⟩

/-- A row that stays queued counts the claim, if there was one. -/
theorem attempts (h : Evolves new claimed gone t t') {r r' : QueuedEvent} (hr : r ∈ t.intakeEvents)
    (hr' : r' ∈ t'.intakeEvents) (hid : identity r'.event = identity r.event) :
    r'.attemptCount = r.attemptCount + if identity r.event ∈ claimed then 1 else 0 := by
  rcases h.intake r' hr' with ⟨hnew, -⟩ | ⟨r₀, hr₀, hevent, hcount⟩
  · exact absurd (.inl ⟨r, hr, hid.symm⟩) (h.fresh _ hnew).1
  · have heq : r₀ = r := Table.eq_of_key_eq hr₀ hr (by rw [hevent, hid])
    rw [hcount, heq]

/-- What is recorded afterwards was recorded before, or is new. -/
theorem origin (h : Evolves new claimed gone t t') {e : Event} (he : Holds t' e) :
    Holds t e ∨ e ∈ new := by
  rcases he with ⟨r', hr', rfl⟩ | ⟨q, hq, rfl⟩
  · rcases h.intake r' hr' with ⟨hnew, -⟩ | ⟨r, hr, hevent, -⟩
    · exact .inr hnew
    · exact .inl (.inl ⟨r, hr, hevent⟩)
  · rcases h.quarantine q hq with hold | ⟨r, hr, hevent, -⟩
    · exact .inl (.inr ⟨q, hold, rfl⟩)
    · exact .inl (.inl ⟨r, hr, hevent⟩)

end Evolves

/-- Under the invariant an identity has one content. -/
theorem Holds.eq {t : Tables} (hno : NoOverlap t) {e e' : Event} (h : Holds t e) (h' : Holds t e')
    (hid : identity e = identity e') : e = e' := by
  rcases h with ⟨r, hr, rfl⟩ | ⟨q, hq, rfl⟩ <;> rcases h' with ⟨r', hr', rfl⟩ | ⟨q', hq', rfl⟩
  · rw [Table.eq_of_key_eq hr hr' hid]
  · exact absurd hid (hno r hr q' hq')
  · exact absurd hid.symm (hno r' hr' q hq)
  · rw [Table.eq_of_key_eq hq hq' hid]

/-! ## The Operations Evolve the Tables -/

theorem evolves_inserted {event : Event} {t t' : Tables} (h : Inserted event t t') :
    Evolves [event] [] [] t t' where
  fresh e he := by
    obtain rfl := List.mem_singleton.mp he
    exact ⟨h.fresh, h.nonneg⟩
  intake := by
    intro r' hr'
    rw [Table.mem_def, h.intake, List.mem_append, List.mem_singleton] at hr'
    rcases hr' with hold | rfl
    · exact .inr ⟨r', hold, rfl, by simp⟩
    · exact .inl ⟨List.mem_singleton_self _, rfl⟩
  leaves := by simp
  stays r hr _ := ⟨r, by rw [Table.mem_def, h.intake]; exact List.mem_append_left _ hr, rfl⟩
  quarantine q hq := .inl (h.quarantine ▸ hq)
  quarantined q hq := h.quarantine ▸ hq

/-- The events an insertion adds. -/
def added (event : Event) (result : InsertResult) : List Event :=
  if result = .inserted then [event] else []

theorem added_compareContent (event : Event) (recorded arrived : Bytes) :
    added event (compareContent recorded arrived) = [] := by
  unfold added compareContent
  split <;> simp

theorem evolves_insert {event : Event} {t t' : Tables} {r : InsertResult}
    (h : InsertEffect event t r t') : Evolves (added event r) [] [] t t' := by
  cases h with
  | inserted _ h => exact evolves_inserted h
  | known =>
    rw [added_compareContent]
    exact Evolves.refl t

theorem evolves_claimAll {t : Tables} {rows : List QueuedEvent}
    (hrows : ∀ r ∈ rows, r ∈ t.intakeEvents) :
    Evolves [] (rows.map fun r => identity r.event) [] t (claimAll rows t) where
  fresh := by simp
  intake := by
    intro r' hr'
    right
    rcases (mem_claimAll hrows).mp hr' with ⟨hold, hnot⟩ | ⟨r, hmem, rfl⟩
    · -- A row left alone has an identity of its own, none of the claimed ones.
      have hids : identity r'.event ∉ rows.map fun r => identity r.event := by
        rintro hmem
        obtain ⟨r, hr, hid⟩ := List.mem_map.mp hmem
        exact hnot (Table.eq_of_key_eq (hrows r hr) hold hid ▸ hr)
      exact ⟨r', hold, rfl, by simp [hids]⟩
    · have hids : identity r.event ∈ rows.map fun r => identity r.event :=
        List.mem_map_of_mem hmem
      exact ⟨r, hrows r hmem, rfl, by simp [hids, claimRow]⟩
  leaves := by simp
  stays := by
    intro r hr _
    by_cases hmem : r ∈ rows
    · exact ⟨claimRow r, (mem_claimAll hrows).mpr (.inr ⟨r, hmem, rfl⟩), rfl⟩
    · exact ⟨r, (mem_claimAll hrows).mpr (.inl ⟨hr, hmem⟩), rfl⟩
  quarantine q hq := .inl hq
  quarantined q hq := hq

theorem evolves_releaseOne {t : Tables} {claimed : QueuedEvent}
    (hrow : claimed ∈ t.intakeEvents) (hstate : claimed.state = .inFlight) :
    Evolves [] [] [] t (releaseOne claimed t) where
  fresh := by simp
  intake := by
    intro r' hr'
    rcases (mem_releaseOne hrow hstate).mp hr' with ⟨hold, -⟩ | rfl
    · exact .inr ⟨r', hold, rfl, by simp⟩
    · exact .inr ⟨claimed, hrow, rfl, by simp [releaseRow]⟩
  leaves := by simp
  stays := by
    intro r hr _
    by_cases heq : r = claimed
    · exact ⟨releaseRow claimed, (mem_releaseOne hrow hstate).mpr (.inr rfl), by rw [heq]; rfl⟩
    · exact ⟨r, (mem_releaseOne hrow hstate).mpr (.inl ⟨hr, heq⟩), rfl⟩
  quarantine q hq := .inl hq
  quarantined q hq := hq

/-- The identities a settlement takes out of the queue. -/
def removed (settled : List (QueuedEvent × DeliveryDecision)) : List Identity :=
  (settled.filter fun s => s.2.action ≠ .retry).map fun s => identity s.1.event

theorem mem_removed {settled : List (QueuedEvent × DeliveryDecision)} {id : Identity} :
    id ∈ removed settled ↔ ∃ s ∈ settled, s.2.action ≠ .retry ∧ identity s.1.event = id := by
  simp [removed, and_assoc]

theorem evolves_settleAll {now : Bytes} {t : Tables}
    {settled : List (QueuedEvent × DeliveryDecision)} (h : AllSettleable now settled t)
    (hrows : ∀ s ∈ settled, s.1 ∈ t.intakeEvents) :
    Evolves [] [] (removed settled) t (settleAll now settled t) where
  fresh := by simp
  intake := by
    intro r' hr'
    rcases (mem_settleAll_intake h hrows).mp hr' with ⟨hold, -⟩ | ⟨s, hs, -, rfl⟩
    · exact .inr ⟨r', hold, rfl, by simp⟩
    · exact .inr ⟨s.1, hrows s hs, rfl, by simp [releaseRow]⟩
  leaves := by
    intro r' hr' hgone
    obtain ⟨s, hs, haction, hid⟩ := mem_removed.mp hgone
    rcases (mem_settleAll_intake h hrows).mp hr' with ⟨hold, hne⟩ | ⟨s', hs', hretry, rfl⟩
    · exact hne s hs (Table.eq_of_key_eq hold (hrows s hs) hid.symm)
    · -- one decision an identity: the row was released, so it was not removed
      obtain rfl := List.inj_on_of_nodup_map (nodup_of_allSettleable h hrows) hs hs' hid
      exact haction hretry
  stays := by
    intro r hr hstays
    by_cases hsettled : ∃ s ∈ settled, r = s.1
    · obtain ⟨s, hs, rfl⟩ := hsettled
      have hretry : s.2.action = .retry := by
        by_contra haction
        exact hstays (mem_removed.mpr ⟨s, hs, haction, rfl⟩)
      exact ⟨releaseRow s.1, (mem_settleAll_intake h hrows).mpr (.inr ⟨s, hs, hretry, rfl⟩), rfl⟩
    · simp only [not_exists, not_and] at hsettled
      exact ⟨r, (mem_settleAll_intake h hrows).mpr (.inl ⟨hr, hsettled⟩), rfl⟩
  quarantine := by
    intro q hq
    rcases (mem_settleAll_quarantine h).mp hq with hold | ⟨s, hs, hrejected, rfl⟩
    · exact .inl hold
    · exact .inr ⟨s.1, hrows s hs, rfl, mem_removed.mpr ⟨s, hs, by simp [hrejected], rfl⟩⟩
  quarantined q hq := (mem_settleAll_quarantine h).mpr (.inl hq)

theorem evolves_recoverAll (t : Tables) : Evolves [] [] [] t (recoverAll t) where
  fresh := by simp
  intake := by
    intro r' hr'
    obtain ⟨r, hr, rfl⟩ := mem_recoverAll.mp hr'
    -- whether it was in flight or not, the row keeps its event
    refine .inr ⟨r, hr, ?_⟩
    split <;> simp [releaseRow]
  leaves := by simp
  stays := by
    intro r hr _
    refine ⟨_, mem_recoverAll.mpr ⟨r, hr, rfl⟩, ?_⟩
    split <;> rfl
  quarantine q hq := .inl hq
  quarantined q hq := hq

/-! ## Runs -/

inductive Operation where
  | insert (event : Event)
  | loadPending (limit : Nat)
  | claimPending (limit : Nat)
  | releaseClaim (claimed : QueuedEvent)
  | applyDecisions (now : Bytes) (claimed : List QueuedEvent) (decisions : List DeliveryDecision)
  | close
  | reopen

inductive Returned where
  | inserted (result : InsertResult)
  | loaded (rows : List QueuedEvent)
  | claimed (rows : List QueuedEvent)
  | released (isReleased : Bool)
  | applied
  | closed
  | opened
deriving DecidableEq

/-- An operation, and which of its calls into the database fail. -/
structure Call where
  operation : Operation
  faults : List Bool

/-- The file, whether a store is open on it, and the claims handed out and not yet taken back. -/
structure World where
  tables : Tables
  isOpen : Bool
  live : List QueuedEvent

def Operation.program : Operation → Sql Tables Returned
  | .insert event => Returned.inserted <$> Store.insert event
  | .loadPending limit => Returned.loaded <$> Store.loadPending limit
  | .claimPending limit => Returned.claimed <$> Store.claimPending limit
  | .releaseClaim claimed => Returned.released <$> Store.releaseClaim claimed
  | .applyDecisions now claimed decisions =>
    (fun _ => Returned.applied) <$> Store.applyDecisions now claimed decisions
  | .close => (fun _ => Returned.closed) <$> Sql.calls 1
  | .reopen => (fun _ => Returned.opened) <$> openStore

/-- The claims an operation takes back. -/
def Operation.uses : Operation → List QueuedEvent
  | .releaseClaim claimed => [claimed]
  | .applyDecisions _ claimed _ => claimed
  | _ => []

/-- Whether a store is open after the operation. -/
def Operation.opens (operation : Operation) (wasOpen succeeded : Bool) : Bool :=
  match operation with
  | .close => !succeeded
  | .reopen => succeeded
  | _ => wasOpen

/-- The claims that can still be used; an operation that throws takes none back. -/
def liveAfter (operation : Operation) (outcome : Except String Returned)
    (live : List QueuedEvent) : List QueuedEvent :=
  match operation, outcome with
  | .reopen, _ => []
  | _, .error _ => live
  | _, .ok (.claimed rows) => live ++ rows
  | operation, .ok _ => live.filter fun c => decide (c ∉ operation.uses)

/-- One call. Without an open store only opening one does anything. -/
def step (w : World) (call : Call) : Except String Returned × World :=
  match w.isOpen, call.operation with
  -- close may be called again
  | false, .close => (.ok .closed, w)
  | false, .insert _ | false, .loadPending _ | false, .claimPending _ | false, .releaseClaim _
  | false, .applyDecisions .. => (.error "the store is closed", w)
  | _, operation =>
    let (outcome, c) := operation.program ⟨w.tables, call.faults⟩
    (outcome,
      { tables := c.data
        isOpen := operation.opens w.isOpen outcome.isOk
        live := liveAfter operation outcome w.live })

def run (w : World) (calls : List Call) : World := calls.foldl (fun w call => (step w call).2) w

/-- A file on which no store is open yet. -/
def start (t : Tables) : World := ⟨t, false, []⟩

/-- Only claims that were handed out, and neither taken back nor outlived, are used. -/
def Allowed (w : World) (call : Call) : Prop := ∀ c ∈ call.operation.uses, c ∈ w.live

def Disciplined : World → List Call → Prop
  | _, [] => True
  | w, call :: rest => Allowed w call ∧ Disciplined (step w call).2 rest

/-- The events a call queued. -/
def insertedBy (operation : Operation) (outcome : Except String Returned) : List Event :=
  match operation, outcome with
  | .insert event, .ok (.inserted result) => added event result
  | _, _ => []

/-- The identities a call claimed. -/
def claimedBy : Except String Returned → List Identity
  | .ok (.claimed rows) => rows.map fun r => identity r.event
  | _ => []

/-- The identities a call took out of the queue. -/
def removedBy (operation : Operation) (outcome : Except String Returned) : List Identity :=
  match operation, outcome with
  | .applyDecisions _ claimed decisions, .ok _ => removed (claimed.zip decisions)
  | _, _ => []

/-! ### The Invariant -/

/-- Nothing is recorded twice, and every live claim is a row of the queue, in flight. -/
structure Sound (w : World) : Prop where
  noOverlap : NoOverlap w.tables
  live : ∀ c ∈ w.live, c ∈ w.tables.intakeEvents ∧ c.state = .inFlight

/-- What a call that returns does. -/
structure Returns (w : World) (operation : Operation) (r : Returned) (t' : Tables) : Prop where
  evolves : Evolves (insertedBy operation (.ok r)) (claimedBy (.ok r))
    (removedBy operation (.ok r)) w.tables t'
  live : ∀ c ∈ liveAfter operation (.ok r) w.live, c ∈ t'.intakeEvents ∧ c.state = .inFlight

variable {w : World}

theorem returns_insert {event : Event} (hw : Sound w) {r : InsertResult} {t' : Tables}
    (h : InsertEffect event w.tables r t') : Returns w (.insert event) (.inserted r) t' where
  evolves := evolves_insert h
  live := by
    intro c hc
    obtain ⟨hrow, hstate⟩ := hw.live c (List.mem_of_mem_filter hc)
    refine ⟨?_, hstate⟩
    cases h with
    | inserted _ h =>
      rw [Table.mem_def, h.intake]
      exact List.mem_append_left _ hrow
    | known => exact hrow

theorem returns_claimPending {limit : Nat} (hw : Sound w) :
    Returns w (.claimPending limit) (.claimed ((oldestPending limit w.tables).map claimRow))
      (claimAll (oldestPending limit w.tables) w.tables) where
  evolves := by
    have hids : claimedBy (.ok (.claimed ((oldestPending limit w.tables).map claimRow))) =
        (oldestPending limit w.tables).map fun r => identity r.event := by
      simp [claimedBy, Function.comp_def, identity_claimRow]
    rw [hids]
    exact evolves_claimAll fun r hr => (mem_oldestPending hr).1
  live := by
    intro c hc
    have hrows : ∀ r ∈ oldestPending limit w.tables, r ∈ w.tables.intakeEvents :=
      fun r hr => (mem_oldestPending hr).1
    rcases List.mem_append.mp hc with hold | hnew
    · -- a claim held already is in flight, and only pending rows are taken
      obtain ⟨hrow, hstate⟩ := hw.live c hold
      refine ⟨(mem_claimAll hrows).mpr (.inl ⟨hrow, fun hpending => ?_⟩), hstate⟩
      rw [(mem_oldestPending hpending).2] at hstate
      exact absurd hstate (by decide)
    · obtain ⟨r, hr, rfl⟩ := List.mem_map.mp hnew
      exact ⟨(mem_claimAll hrows).mpr (.inr ⟨r, hr, rfl⟩), rfl⟩

theorem returns_releaseClaim {claimed : QueuedEvent} (hw : Sound w) (hlive : claimed ∈ w.live)
    (released : Bool) :
    Returns w (.releaseClaim claimed) (.released released) (releaseOne claimed w.tables) where
  evolves := evolves_releaseOne (hw.live claimed hlive).1 (hw.live claimed hlive).2
  live := by
    intro c hc
    obtain ⟨hc, hne⟩ := List.mem_filter.mp hc
    obtain ⟨hrow, hstate⟩ := hw.live c hc
    refine ⟨(mem_releaseOne (hw.live claimed hlive).1 (hw.live claimed hlive).2).mpr ?_, hstate⟩
    exact .inl ⟨hrow, by simpa [Operation.uses] using hne⟩

theorem returns_applyDecisions {now : Bytes} {claimed : List QueuedEvent}
    {decisions : List DeliveryDecision} (hw : Sound w) (hlive : ∀ c ∈ claimed, c ∈ w.live)
    (h : AllSettleable now (claimed.zip decisions) w.tables) :
    Returns w (.applyDecisions now claimed decisions) .applied
      (settleAll now (claimed.zip decisions) w.tables) := by
  have hclaims : ∀ s ∈ claimed.zip decisions, s.1 ∈ claimed := fun s hs => (List.of_mem_zip hs).1
  have hrows : ∀ s ∈ claimed.zip decisions, s.1 ∈ w.tables.intakeEvents := fun s hs =>
    (hw.live s.1 (hlive s.1 (hclaims s hs))).1
  refine ⟨evolves_settleAll h hrows, fun c hc => ?_⟩
  -- a claim that stays live is none of those that were settled
  obtain ⟨hc, hne⟩ := List.mem_filter.mp hc
  obtain ⟨hrow, hstate⟩ := hw.live c hc
  refine ⟨(mem_settleAll_intake h hrows).mpr (.inl ⟨hrow, ?_⟩), hstate⟩
  rintro s hs rfl
  simp [Operation.uses, hclaims s hs] at hne

/-- An operation that changes nothing and takes back nothing. -/
theorem returns_unchanged {operation : Operation} {r : Returned} (hw : Sound w)
    (hinserted : insertedBy operation (.ok r) = []) (hclaimed : claimedBy (.ok r) = [])
    (hremoved : removedBy operation (.ok r) = [])
    (hlive : ∀ c ∈ liveAfter operation (.ok r) w.live, c ∈ w.live) :
    Returns w operation r w.tables where
  evolves := by
    rw [hinserted, hclaimed, hremoved]
    exact Evolves.refl _
  live c hc := hw.live c (hlive c hc)

/-- What each operation does when claims are used as they should. -/
theorem program_spec {call : Call} (hw : Sound w) (hallowed : Allowed w call) :
    Performs call.operation.program ⟨w.tables, call.faults⟩ (Returns w call.operation) := by
  obtain ⟨operation, faults⟩ := call
  cases operation with
  | insert event => exact performs_map (insert_spec event _) fun _ _ => returns_insert hw
  | loadPending limit =>
    refine performs_map (loadPending_spec limit _) fun rows t' h => ?_
    obtain ⟨rfl, -⟩ := h
    exact returns_unchanged hw rfl rfl rfl fun c hc => List.mem_of_mem_filter hc
  | claimPending limit =>
    refine performs_map (claimPending_spec limit _) fun rows t' h => ?_
    obtain ⟨rfl, rfl⟩ := h
    exact returns_claimPending hw
  | releaseClaim claimed =>
    refine performs_map (releaseClaim_spec claimed _) fun released t' h => ?_
    obtain ⟨-, rfl, -⟩ := h
    exact returns_releaseClaim hw (hallowed claimed (List.mem_singleton_self _)) released
  | applyDecisions now claimed decisions =>
    refine performs_map (applyDecisions_spec now claimed decisions _) fun _ t' h => ?_
    obtain ⟨hall, rfl⟩ := h
    exact returns_applyDecisions hw hallowed hall
  | close =>
    refine performs_map (performs_calls 1 _) fun _ t' h => ?_
    rw [h]
    exact returns_unchanged hw rfl rfl rfl fun c hc => List.mem_of_mem_filter hc
  | reopen =>
    refine performs_map (openStore_spec _) fun _ t' h => ?_
    rw [h]
    exact ⟨evolves_recoverAll _, by simp [liveAfter]⟩

/-- What one call does, whatever fails. -/
structure Stepped (w : World) (call : Call) : Prop where
  sound : Sound (step w call).2
  evolves : Evolves (insertedBy call.operation (step w call).1) (claimedBy (step w call).1)
    (removedBy call.operation (step w call).1) w.tables (step w call).2.tables
  throws : ∀ what, (step w call).1 = .error what → (step w call).2.tables = w.tables

/-- A call of an operation on the open store, or one that opens it. -/
theorem step_performs {call : Call} (h : w.isOpen = true ∨ call.operation = .reopen) :
    step w call =
      ((call.operation.program ⟨w.tables, call.faults⟩).1,
        { tables := (call.operation.program ⟨w.tables, call.faults⟩).2.data
          isOpen := call.operation.opens w.isOpen
            (call.operation.program ⟨w.tables, call.faults⟩).1.isOk
          live := liveAfter call.operation (call.operation.program ⟨w.tables, call.faults⟩).1
            w.live }) := by
  obtain ⟨operation, faults⟩ := call
  unfold step
  rcases h with h | rfl
  · simp only [h]
  · cases w.isOpen <;> rfl

/-- A call that needs an open store, without one. -/
theorem step_closed {call : Call} (h : w.isOpen = false) (hop : call.operation ≠ .reopen) :
    (step w call).2 = w ∧ insertedBy call.operation (step w call).1 = [] ∧
      claimedBy (step w call).1 = [] ∧ removedBy call.operation (step w call).1 = [] := by
  obtain ⟨operation, faults⟩ := call
  unfold step
  cases operation with
  | reopen => exact absurd rfl hop
  | _ => simp [h, insertedBy, claimedBy, removedBy]

theorem step_sound {call : Call} (hw : Sound w) (hallowed : Allowed w call) : Stepped w call := by
  by_cases h : w.isOpen = true ∨ call.operation = .reopen
  · have hstep := step_performs h
    -- the transaction either failed and left the tables, or did what its operation promises
    rcases program_spec hw hallowed with ⟨what, herr, hdata⟩ | ⟨r, hok, hret⟩
    · simp only [herr, hdata] at hstep
      refine ⟨⟨?_, ?_⟩, ?_, ?_⟩
      · rw [hstep]
        exact hw.noOverlap
      · rw [hstep]
        intro c hc
        refine hw.live c ?_
        cases hop : call.operation with
        | reopen => simp [hop, liveAfter] at hc
        | _ => simpa [hop, liveAfter] using hc
      · rw [hstep]
        have hinserted : insertedBy call.operation (.error what) = [] := by
          cases call.operation <;> rfl
        have hremoved : removedBy call.operation (.error what) = [] := by
          cases call.operation <;> rfl
        rw [hinserted, hremoved]
        exact Evolves.refl _
      · intro _ _
        rw [hstep]
    · simp only [hok] at hstep
      refine ⟨?_, ?_, by simp [hstep]⟩
      · rw [hstep]
        exact ⟨hret.evolves.noOverlap hw.noOverlap, hret.live⟩
      · rw [hstep]
        exact hret.evolves
  · simp only [not_or, Bool.not_eq_true] at h
    obtain ⟨hsame, hinserted, hclaimed, hremoved⟩ := step_closed h.1 h.2
    refine ⟨by rw [hsame]; exact hw, ?_, fun _ _ => by rw [hsame]⟩
    rw [hsame, hinserted, hclaimed, hremoved]
    exact Evolves.refl _

/-! ### Along a Run -/

theorem sound_start {t : Tables} (h : NoOverlap t) : Sound (start t) := ⟨h, by simp [start]⟩

theorem run_sound {calls : List Call} (hw : Sound w) (hcalls : Disciplined w calls) :
    Sound (run w calls) := by
  induction calls generalizing w with
  | nil => exact hw
  | cons call rest ih => exact ih (step_sound hw hcalls.1).sound hcalls.2

/-- The tables satisfy `p` from the start of the run to its end. -/
def Throughout (p : Tables → Prop) : World → List Call → Prop
  | w, [] => p w.tables
  | w, call :: rest => p w.tables ∧ Throughout p (step w call).2 rest

theorem Throughout.head {p : Tables → Prop} {calls : List Call} (h : Throughout p w calls) :
    p w.tables := by
  cases calls with
  | nil => exact h
  | cons call rest => exact h.1

/-- The identity has a row in the queue. -/
def Queued (id : Identity) (t : Tables) : Prop := ∃ r ∈ t.intakeEvents, identity r.event = id

/-- How many successful claims of the run took the identity. -/
def claims (id : Identity) : World → List Call → Nat
  | _, [] => 0
  | w, call :: rest =>
    (if id ∈ claimedBy (step w call).1 then 1 else 0) + claims id (step w call).2 rest

/-- An event that stays recorded stays the same event. -/
theorem run_holds {calls : List Call} {e : Event} (hw : Sound w) (hcalls : Disciplined w calls)
    (he : Holds w.tables e)
    (hrecorded : Throughout (fun t => Recorded t (identity e)) w calls) :
    Holds (run w calls).tables e := by
  induction calls generalizing w with
  | nil => exact he
  | cons call rest ih =>
    have hstep := step_sound hw hcalls.1
    exact ih hstep.sound hcalls.2 (hstep.evolves.holds hw.noOverlap he hrecorded.2.head) hrecorded.2

/-- A row that stays queued counts exactly the successful claims. -/
theorem run_attempts {calls : List Call} {r r' : QueuedEvent} (hw : Sound w)
    (hcalls : Disciplined w calls) (hr : r ∈ w.tables.intakeEvents)
    (hqueued : Throughout (Queued (identity r.event)) w calls)
    (hr' : r' ∈ (run w calls).tables.intakeEvents)
    (hid : identity r'.event = identity r.event) :
    r'.attemptCount = r.attemptCount + claims (identity r.event) w calls := by
  induction calls generalizing w r with
  | nil =>
    rw [Table.eq_of_key_eq hr' hr hid]
    simp [claims]
  | cons call rest ih =>
    have hstep := step_sound hw hcalls.1
    -- the row is still there after the call, under the same identity
    obtain ⟨r₁, hr₁, hid₁⟩ := hqueued.2.head
    have hone := hstep.evolves.attempts hr hr₁ hid₁
    have hrest := ih hstep.sound hcalls.2 hr₁ (hid₁ ▸ hqueued.2) hr' (hid.trans hid₁.symm)
    rw [hrest, hone, claims, hid₁]
    split <;> push_cast <;> omega

/-- What every recorded event of a reachable file satisfies. -/
structure Consistent (t : Tables) : Prop where
  noOverlap : NoOverlap t
  sequence : ∀ e, Holds t e → 0 ≤ e.sequenceNumber
  attempts : ∀ r ∈ t.intakeEvents, 0 ≤ r.attemptCount

theorem Evolves.consistent {new : List Event} {claimed gone : List Identity} {t t' : Tables}
    (h : Evolves new claimed gone t t') (ht : Consistent t) : Consistent t' where
  noOverlap := h.noOverlap ht.noOverlap
  sequence := by
    intro e he
    -- an event was there before or has just passed the checks of insert
    rcases h.origin he with hold | hnew
    · exact ht.sequence e hold
    · exact (h.fresh e hnew).2
  attempts := by
    intro r' hr'
    rcases h.intake r' hr' with ⟨-, hcount⟩ | ⟨r, hr, -, hcount⟩
    · omega
    · have := ht.attempts r hr
      split at hcount <;> omega

theorem run_consistent {calls : List Call} (hw : Sound w) (hcalls : Disciplined w calls)
    (ht : Consistent w.tables) : Consistent (run w calls).tables := by
  induction calls generalizing w with
  | nil => exact ht
  | cons call rest ih =>
    have hstep := step_sound hw hcalls.1
    exact ih hstep.sound hcalls.2 (hstep.evolves.consistent ht)

def Tables.empty : Tables := ⟨Table.empty, Table.empty⟩

theorem consistent_empty : Consistent Tables.empty where
  noOverlap := by simp [NoOverlap, Tables.empty]
  sequence := by simp [Holds, Tables.empty]
  attempts := by simp [Tables.empty]

/-- The tables some run from a new file leads to. -/
def Reachable (t : Tables) : Prop :=
  ∃ calls, Disciplined (start Tables.empty) calls ∧ (run (start Tables.empty) calls).tables = t

theorem Reachable.consistent {t : Tables} (h : Reachable t) : Consistent t := by
  obtain ⟨calls, hcalls, rfl⟩ := h
  exact run_consistent (sound_start consistent_empty.noOverlap) hcalls consistent_empty

/-! ## The Guarantees of the Queue -/

/-- What a single call, made at some point of a run, cannot break. -/
structure CallSafe (w : World) (call : Call) : Prop where
  /-- A row leaves the queue only by a settlement that returns, for a claim that carries the
  row's attempt count. -/
  leaves : ∀ r ∈ w.tables.intakeEvents, ¬Queued (identity r.event) (step w call).2.tables →
    ∃ now claimed decisions, call.operation = .applyDecisions now claimed decisions ∧
      (step w call).1 = .ok .applied ∧
      ∃ c ∈ claimed, identity c.event = identity r.event ∧ c.attemptCount = r.attemptCount
  quarantined : ∀ q ∈ w.tables.quarantinedEvents, q ∈ (step w call).2.tables.quarantinedEvents
  throws : ∀ what, (step w call).1 = .error what → (step w call).2.tables = w.tables

/-- What the rest of a run cannot break. -/
structure RunSafe (w : World) (calls : List Call) : Prop where
  noOverlap : NoOverlap (run w calls).tables
  content : ∀ e, Holds w.tables e → Throughout (fun t => Recorded t (identity e)) w calls →
    ∀ e', Holds (run w calls).tables e' → identity e' = identity e →
      e'.mqttPayload = e.mqttPayload ∧ e'.gatewayReceivedAt = e.gatewayReceivedAt
  attempts : ∀ r ∈ w.tables.intakeEvents, Throughout (Queued (identity r.event)) w calls →
    ∀ r' ∈ (run w calls).tables.intakeEvents, identity r'.event = identity r.event →
      r'.attemptCount = r.attemptCount + claims (identity r.event) w calls

theorem run_safe {calls : List Call} (hw : Sound w) (hcalls : Disciplined w calls) :
    RunSafe w calls where
  noOverlap := (run_sound hw hcalls).noOverlap
  content := by
    intro e he hrecorded e' he' hid
    have hkept := run_holds hw hcalls he hrecorded
    rw [Holds.eq (run_sound hw hcalls).noOverlap he' hkept hid]
    exact ⟨rfl, rfl⟩
  attempts _ hr hqueued _ hr' hid := run_attempts hw hcalls hr hqueued hr' hid

/-- A settlement that returns says so. -/
theorem applied_of_step_eq_ok {now : Bytes} {claimed : List QueuedEvent}
    {decisions : List DeliveryDecision} {faults : List Bool} {r : Returned}
    (h : (step w ⟨.applyDecisions now claimed decisions, faults⟩).1 = .ok r) : r = .applied := by
  unfold step at h
  cases hopen : w.isOpen with
  | false => simp [hopen] at h
  | true =>
    simp only [hopen, Operation.program] at h
    change (Sql.andThen _ (fun _ => Sql.ok Returned.applied) _).1 = _ at h
    rw [Sql.andThen] at h
    split at h
    · exact (Except.ok.inj h).symm
    · simp at h

theorem call_safe {call : Call} (hw : Sound w) (hallowed : Allowed w call) : CallSafe w call where
  leaves := by
    intro r hr hgone
    have hevolves := (step_sound hw hallowed).evolves
    have hremoved : identity r.event ∈ removedBy call.operation (step w call).1 := by
      by_contra hstays
      exact hgone (hevolves.stays r hr hstays)
    obtain ⟨operation, faults⟩ := call
    cases operation with
    | applyDecisions now claimed decisions =>
      cases hout : (step w ⟨.applyDecisions now claimed decisions, faults⟩).1 with
      | error what => simp [hout, removedBy] at hremoved
      | ok returned =>
        obtain rfl := applied_of_step_eq_ok hout
        simp only [hout, removedBy] at hremoved
        obtain ⟨s, hs, -, hid⟩ := mem_removed.mp hremoved
        have hclaim : s.1 ∈ claimed := (List.of_mem_zip hs).1
        -- a live claim is the row itself
        have hrow : s.1 = r := Table.eq_of_key_eq (hw.live s.1 (hallowed s.1 hclaim)).1 hr hid
        exact ⟨now, claimed, decisions, rfl, rfl, s.1, hclaim, hid, by rw [hrow]⟩
    | _ => simp [removedBy] at hremoved
  quarantined := (step_sound hw hallowed).evolves.quarantined
  throws := (step_sound hw hallowed).throws

/-- The queue, on any file without a double identity, at every point of every run in which claims
are used as they are handed out: the next call is safe, and so is every continuation. -/
theorem store_invariant (t : Tables) (ht : NoOverlap t) (past : List Call)
    (hpast : Disciplined (start t) past) :
    NoOverlap (run (start t) past).tables ∧
      (∀ call, Allowed (run (start t) past) call → CallSafe (run (start t) past) call) ∧
      ∀ future, Disciplined (run (start t) past) future → RunSafe (run (start t) past) future := by
  have hw := run_sound (sound_start ht) hpast
  exact ⟨hw.noOverlap, fun _ => call_safe hw, fun _ => run_safe hw⟩

instance (w : World) (call : Call) : Decidable (Allowed w call) :=
  inferInstanceAs (Decidable (∀ c ∈ call.operation.uses, c ∈ w.live))

instance decidableDisciplined : (w : World) → (calls : List Call) → Decidable (Disciplined w calls)
  | _, [] => isTrue trivial
  | w, call :: rest =>
    have := decidableDisciplined (step w call).2 rest
    inferInstanceAs (Decidable (Allowed w call ∧ Disciplined (step w call).2 rest))

/-- An event is queued, claimed and rejected; a settlement that fails on the way is made again. -/
def sampleRun : List Call :=
  let event : Event := ⟨ascii "d1", ascii "b1", 7, ascii "payload", ascii "noon"⟩
  let claim : QueuedEvent := ⟨event, .inFlight, 1⟩
  let reject : DeliveryDecision := ⟨.rejected, ascii "stale_event"⟩
  [⟨.reopen, []⟩, ⟨.insert event, []⟩, ⟨.claimPending 500, []⟩,
    ⟨.applyDecisions [] [claim] [reject], [false, false, true]⟩,
    ⟨.applyDecisions [] [claim] [reject], []⟩]

theorem store_invariant_rejection :
    NoOverlap (run (start Tables.empty) sampleRun).tables ∧
      ∀ call, Allowed (run (start Tables.empty) sampleRun) call →
        CallSafe (run (start Tables.empty) sampleRun) call := by
  have h := store_invariant Tables.empty (by simp [NoOverlap, Tables.empty]) sampleRun
    (by decide +kernel)
  exact ⟨h.1, h.2.1⟩

example : ((run (start Tables.empty) sampleRun).tables.quarantinedEvents.rows.map
    fun q => q.attemptCount) = [1] := by decide +kernel

end EquipmentMonitoring.Store
