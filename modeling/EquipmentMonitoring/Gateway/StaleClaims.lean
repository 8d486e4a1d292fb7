import EquipmentMonitoring.Gateway.StoreInvariant

/-!
# Claims that Have Been Settled

A claim is a value, so nothing keeps its holder from using it again. The store tells a stale claim
by its attempt count, which grows as long as the row stays queued. A row that is deleted and then
inserted again starts counting from zero.

## Key Results

- `refused_iff_dead`: a claim has no effect exactly when it addresses no row
- `settles_outlived`: a settlement leaves the row ahead of the claim, or leaves no row
- `run_outlived`: so it stays until the identity is inserted again
- `settled_claim_refused_iff`: when a settled claim is refused
- `settled_claim_revived`: a run in which one is not
-/

namespace EquipmentMonitoring.Store

open EquipmentMonitoring.Telemetry

/-! ## Refused Claims -/

/-- The claim addresses no row. -/
def Dead (claimed : QueuedEvent) (t : Tables) : Prop :=
  ∀ r ∈ t.intakeEvents, matchesClaim .inFlight claimed r = false

/-- No use of the claim has an effect, whatever fails on the way. -/
structure Refused (claimed : QueuedEvent) (t : Tables) : Prop where
  /-- Without a fault, the release says that nothing was released. -/
  answer : Sql.exec (releaseClaim claimed) t = (.ok false, t)
  release : ∀ faults, (releaseClaim claimed ⟨t, faults⟩).1 ≠ .ok true ∧
    (releaseClaim claimed ⟨t, faults⟩).2.data = t
  /-- A settlement of a batch with the claim throws. -/
  settlement : ∀ now batch decisions faults, claimed ∈ batch →
    (∃ what, (applyDecisions now batch decisions ⟨t, faults⟩).1 = .error what) ∧
      (applyDecisions now batch decisions ⟨t, faults⟩).2.data = t

theorem releaseOne_of_dead {claimed : QueuedEvent} {t : Tables} (h : Dead claimed t) :
    releaseOne claimed t = t := by
  rw [releaseOne, updateClaim, Table.update_of_none h]

/-- A batch that is settled has one decision a claim. -/
theorem applyDecisions_shape {now : Bytes} {claimed : List QueuedEvent}
    {decisions : List DeliveryDecision} {c : Connection Tables}
    (h : (applyDecisions now claimed decisions c).1 = .ok ()) :
    claimed.length = decisions.length := by
  unfold applyDecisions at h
  split at h
  · simp [Sql.raise] at h
  · next hshape =>
    simp only [not_or, not_not] at hshape
    exact hshape.1

theorem exists_decision {claimed : List QueuedEvent} {decisions : List DeliveryDecision}
    (hlength : claimed.length = decisions.length) {c : QueuedEvent} (hc : c ∈ claimed) :
    ∃ d, (c, d) ∈ claimed.zip decisions := by
  obtain ⟨i, hi, rfl⟩ := List.mem_iff_getElem.mp hc
  have hzip : i < (claimed.zip decisions).length := by
    rw [List.length_zip]
    omega
  have hmem := List.getElem_mem hzip
  rw [List.getElem_zip] at hmem
  exact ⟨_, hmem⟩

/-- A claim has no effect exactly when it addresses no row. -/
theorem refused_iff_dead {claimed : QueuedEvent} {t : Tables} (hstate : claimed.state = .inFlight) :
    Refused claimed t ↔ Dead claimed t := by
  have hexec : Sql.exec (releaseClaim claimed) t =
      (.ok (t.intakeEvents.count (matchesClaim .inFlight claimed) == 1), releaseOne claimed t) := by
    have hrelease : releaseClaim claimed = Sql.transaction (releaseBody claimed) :=
      if_neg (not_not.mpr hstate)
    rw [hrelease, Sql.exec_transaction (stable_releaseBody claimed)]
    simp only [releaseBody, Sql.exec_statement_bind, Sql.exec_pure, releaseOne, updateClaim]
  constructor
  · intro h r hr
    by_contra hmatch
    have hkey (r : QueuedEvent) (h : matchesClaim .inFlight claimed r = true) :
        identity r.event = identity claimed.event := (matchesClaim_iff.mp h).1
    have hone := (Table.count_eq_one_iff hkey).mpr ⟨r, hr, by simpa using hmatch⟩
    -- the release would have said that it released something
    have hanswer := h.answer
    rw [hexec, hone] at hanswer
    simp at hanswer
  · intro h
    have hnone := Table.count_eq_zero_iff.mpr h
    refine ⟨?_, fun faults => ?_, fun now batch decisions faults hmem => ?_⟩
    · rw [hexec, hnone, releaseOne_of_dead h]
      simp
    · rcases releaseClaim_spec claimed ⟨t, faults⟩ with ⟨what, herr, hdata⟩ | ⟨a, ha, -, ht', ha'⟩
      · exact ⟨by simp [herr], hdata⟩
      · refine ⟨fun htrue => ?_, ht'.trans (releaseOne_of_dead h)⟩
        obtain rfl : a = true := Except.ok.inj (ha.symm.trans htrue)
        simp [hnone] at ha'
    · rcases applyDecisions_spec now batch decisions ⟨t, faults⟩ with
        ⟨what, herr, hdata⟩ | ⟨⟨⟩, hok, hall, -⟩
      · exact ⟨⟨what, herr⟩, hdata⟩
      · obtain ⟨d, hd⟩ := exists_decision (applyDecisions_shape hok) hmem
        exact absurd rfl (ne_of_allSettleable hall h _ hd)

/-! ## Rows that Stay Queued -/

/-- What one operation may do to a row that stays queued. -/
inductive Ages (r : QueuedEvent) : QueuedEvent → Prop where
  | kept : Ages r r
  | released : Ages r (releaseRow r)
  | claimed (h : r.state = .pending) : Ages r (claimRow r)

/-- Every row was queued before, or holds one of the new events. -/
def Continues (new : List Event) (t t' : Tables) : Prop :=
  ∀ r' ∈ t'.intakeEvents, (∃ r ∈ t.intakeEvents, Ages r r') ∨ r'.event ∈ new

theorem Continues.refl (new : List Event) (t : Tables) : Continues new t t :=
  fun r' hr' => .inl ⟨r', hr', .kept⟩

/-- An update that releases some rows. -/
theorem continues_update {t t' : Tables} {p : QueuedEvent → Bool}
    (h : t'.intakeEvents = t.intakeEvents.update p releaseRow identity_releaseRow) :
    Continues [] t t' := by
  intro r' hr'
  rw [h, Table.mem_update] at hr'
  obtain ⟨r, hr, rfl⟩ := hr'
  refine .inl ⟨r, hr, ?_⟩
  split
  · exact .released
  · exact .kept

theorem continues_settleOne (now : Bytes) (s : QueuedEvent × DeliveryDecision) (t : Tables) :
    Continues [] t (settleOne now s t) := by
  by_cases hretry : s.2.action = .retry
  · refine continues_update (p := matchesClaim .inFlight s.1) ?_
    simp only [settleOne, settleRow, hretry, if_true, updateClaim]
  · intro r' hr'
    simp only [settleOne, settleRow, hretry, if_false, deleteClaim, Table.mem_delete] at hr'
    exact .inl ⟨r', hr'.1, .kept⟩

theorem continues_insert {event : Event} {t t' : Tables} {r : InsertResult}
    (h : InsertEffect event t r t') : Continues (added event r) t t' := by
  cases h with
  | inserted _ h =>
    intro r' hr'
    rw [Table.mem_def, h.intake, List.mem_append, List.mem_singleton] at hr'
    rcases hr' with hold | rfl
    · exact .inl ⟨r', hold, .kept⟩
    · exact .inr (by simp [added])
  | known => exact Continues.refl _ t

theorem continues_claimAll {t : Tables} {rows : List QueuedEvent}
    (hrows : ∀ r ∈ rows, r ∈ t.intakeEvents ∧ r.state = .pending) :
    Continues [] t (claimAll rows t) := by
  intro r' hr'
  rcases (mem_claimAll fun r hr => (hrows r hr).1).mp hr' with ⟨hold, -⟩ | ⟨r, hr, rfl⟩
  · exact .inl ⟨r', hold, .kept⟩
  · exact .inl ⟨r, (hrows r hr).1, .claimed (hrows r hr).2⟩

/-! ## Claims that Are Outlived -/

/-- The row with the claim's identity, if there is one, has been released since or is further on. -/
def Outlived (claimed : QueuedEvent) (t : Tables) : Prop :=
  ∀ r ∈ t.intakeEvents, identity r.event = identity claimed.event →
    claimed.attemptCount < r.attemptCount ∨
      (r.attemptCount = claimed.attemptCount ∧ r.state = .pending)

variable {claimed : QueuedEvent} {t t' : Tables}

theorem Outlived.dead (h : Outlived claimed t) : Dead claimed t := by
  intro r hr
  by_contra hmatch
  obtain ⟨hid, hstate, hcount⟩ := matchesClaim_iff.mp (Bool.not_eq_false _ ▸ hmatch)
  rcases h r hr hid with hlt | ⟨-, hpending⟩
  · omega
  · simp [hstate] at hpending

/-- It stays outlived as long as the identity is not queued anew. -/
theorem Outlived.continues {new : List Event} (h : Outlived claimed t)
    (hcontinues : Continues new t t') (hnew : ∀ e ∈ new, identity e ≠ identity claimed.event) :
    Outlived claimed t' := by
  intro r' hr' hid
  rcases hcontinues r' hr' with ⟨r, hr, hages⟩ | hmem
  · cases hages with
    | kept => exact h r' hr hid
    | released =>
      rcases h r hr hid with hlt | ⟨heq, -⟩
      · exact .inl hlt
      · exact .inr ⟨heq, rfl⟩
    | claimed hpending =>
      have hcount : (claimRow r).attemptCount = r.attemptCount + 1 := rfl
      rcases h r hr hid with hlt | ⟨heq, -⟩
      · exact .inl (by omega)
      · exact .inl (by omega)
  · exact absurd hid (hnew _ hmem)

theorem Outlived.settleAll {now : Bytes} {settled : List (QueuedEvent × DeliveryDecision)}
    (h : Outlived claimed t) : Outlived claimed (settleAll now settled t) := by
  induction settled generalizing t with
  | nil => exact h
  | cons s rest ih => exact ih (h.continues (continues_settleOne now s t) (by simp))

/-- The row a claim addresses is behind it once its decision is carried out. -/
theorem outlived_settleOne {now : Bytes} {d : DeliveryDecision}
    (h : Settleable (claimed, d) t) : Outlived claimed (settleOne now (claimed, d) t) := by
  obtain ⟨row, hrow, hmatch⟩ := h.present
  obtain ⟨hid, hstate, hcount⟩ := matchesClaim_iff.mp hmatch
  intro r' hr' hid'
  by_cases hretry : d.action = .retry
  · simp only [settleOne, settleRow, hretry, if_true, updateClaim, Table.mem_update] at hr'
    obtain ⟨r, hr, rfl⟩ := hr'
    -- the table holds one row with this identity
    have hkey : identity r.event = identity claimed.event := by
      split at hid' <;> exact hid'
    obtain rfl := Table.eq_of_key_eq hr hrow (hkey.trans hid.symm)
    rw [if_pos hmatch]
    exact .inr ⟨hcount, rfl⟩
  · simp only [settleOne, settleRow, hretry, if_false, deleteClaim, Table.mem_delete] at hr'
    obtain rfl := Table.eq_of_key_eq hr'.1 hrow (hid'.trans hid.symm)
    simp [hmatch] at hr'

theorem outlived_settleAll {now : Bytes} {settled : List (QueuedEvent × DeliveryDecision)}
    {d : DeliveryDecision} (h : AllSettleable now settled t) (hmem : (claimed, d) ∈ settled) :
    Outlived claimed (settleAll now settled t) := by
  induction settled generalizing t with
  | nil => simp at hmem
  | cons s rest ih =>
    rcases List.mem_cons.mp hmem with rfl | hrest
    · exact (outlived_settleOne h.1).settleAll
    · exact ih h.2 hrest

theorem outlived_releaseOne {row : QueuedEvent} (hrow : row ∈ t.intakeEvents)
    (hmatch : matchesClaim .inFlight claimed row = true) :
    Outlived claimed (releaseOne claimed t) := by
  obtain ⟨hid, -, hcount⟩ := matchesClaim_iff.mp hmatch
  intro r' hr' hid'
  rw [releaseOne, updateClaim, Table.mem_update] at hr'
  obtain ⟨r, hr, rfl⟩ := hr'
  have hkey : identity r.event = identity claimed.event := by
    split at hid' <;> exact hid'
  obtain rfl := Table.eq_of_key_eq hr hrow (hkey.trans hid.symm)
  rw [if_pos hmatch]
  exact .inr ⟨hcount, rfl⟩

theorem state_of_allSettleable {now : Bytes} {settled : List (QueuedEvent × DeliveryDecision)}
    {d : DeliveryDecision} (h : AllSettleable now settled t) (hmem : (claimed, d) ∈ settled) :
    claimed.state = .inFlight := by
  induction settled generalizing t with
  | nil => simp at hmem
  | cons s rest ih =>
    rcases List.mem_cons.mp hmem with rfl | hrest
    · exact h.1.state
    · exact ih h.2 hrest

/-! ## Along a Run -/

/-- No operation brings an outlived claim back, unless it queues the identity. -/
theorem program_outlived (call : Call) (h : Outlived claimed t) :
    Performs call.operation.program ⟨t, call.faults⟩ fun r t' =>
      (∀ e ∈ insertedBy call.operation (.ok r), identity e ≠ identity claimed.event) →
        Outlived claimed t' := by
  obtain ⟨operation, faults⟩ := call
  cases operation with
  | insert event =>
    exact performs_map (insert_spec event _) fun _ _ hi hnew => h.continues (continues_insert hi) hnew
  | loadPending limit =>
    refine performs_map (loadPending_spec limit _) fun _ t' ht' _ => ?_
    rw [ht'.1]
    exact h
  | claimPending limit =>
    refine performs_map (claimPending_spec limit _) fun _ t' ht' _ => ?_
    rw [ht'.2]
    exact h.continues (continues_claimAll fun _ hr => mem_oldestPending hr) (by simp)
  | releaseClaim c =>
    refine performs_map (releaseClaim_spec c _) fun _ t' ht' _ => ?_
    rw [ht'.2.1]
    exact h.continues (continues_update rfl) (by simp)
  | applyDecisions now batch decisions =>
    refine performs_map (applyDecisions_spec now batch decisions _) fun _ t' ht' _ => ?_
    rw [ht'.2]
    exact h.settleAll
  | close =>
    refine performs_map (performs_calls 1 _) fun _ t' ht' _ => ?_
    rw [ht']
    exact h
  | reopen =>
    refine performs_map (openStore_spec _) fun _ t' ht' _ => ?_
    rw [ht']
    exact h.continues (continues_update rfl) (by simp)

variable {w : World}

theorem step_outlived {call : Call} (h : Outlived claimed w.tables)
    (hnew : ∀ e ∈ insertedBy call.operation (step w call).1, identity e ≠ identity claimed.event) :
    Outlived claimed (step w call).2.tables := by
  by_cases hopen : w.isOpen = true ∨ call.operation = .reopen
  · have hstep := step_performs hopen
    rw [hstep] at hnew ⊢
    rcases program_outlived call h with ⟨what, herr, hdata⟩ | ⟨r, hok, hret⟩
    · simp only [hdata]
      exact h
    · rw [hok] at hnew
      exact hret hnew
  · simp only [not_or, Bool.not_eq_true] at hopen
    rw [(step_closed hopen.1 hopen.2).1]
    exact h

/-- The events a run has queued. -/
def queuedBy : World → List Call → List Event
  | _, [] => []
  | w, call :: rest => insertedBy call.operation (step w call).1 ++ queuedBy (step w call).2 rest

/-- The claims a run has handed out. -/
def handedOut : World → List Call → List QueuedEvent
  | _, [] => []
  | w, call :: rest =>
    (match (step w call).1 with
      | .ok (.claimed rows) => rows
      | _ => []) ++ handedOut (step w call).2 rest

/-- An insertion of the run has queued the claim's identity. -/
def QueuedAgain (claimed : QueuedEvent) (w : World) (calls : List Call) : Prop :=
  ∃ e ∈ queuedBy w calls, identity e = identity claimed.event

theorem run_outlived {calls : List Call} (h : Outlived claimed w.tables)
    (hnew : ¬QueuedAgain claimed w calls) : Outlived claimed (run w calls).tables := by
  induction calls generalizing w with
  | nil => exact h
  | cons call rest ih =>
    simp only [QueuedAgain, queuedBy, List.mem_append, not_exists, not_and] at hnew
    refine ih (step_outlived h fun e he => hnew e (.inl he)) ?_
    rintro ⟨e, he, hid⟩
    exact hnew e (.inr he) hid

/-- The call settles the claim: it releases it, or commits a decision on it. -/
def Settles (claimed : QueuedEvent) (w : World) (call : Call) : Prop :=
  (call.operation = .releaseClaim claimed ∧ (step w call).1 = .ok (.released true)) ∨
    ∃ now batch decisions, call.operation = .applyDecisions now batch decisions ∧
      claimed ∈ batch ∧ (step w call).1 = .ok .applied

/-- What a mapped program returned, the program returned before. -/
theorem map_eq_ok {α β : Type} {x : Sql Tables α} {f : α → β} {c : Connection Tables} {b : β}
    (h : ((f <$> x) c).1 = .ok b) : ∃ a, (x c).1 = .ok a ∧ f a = b ∧
      ((f <$> x) c).2.data = (x c).2.data := by
  have hmap : (f <$> x) c = Sql.andThen x (fun a => Sql.ok (f a)) c := rfl
  rw [hmap, Sql.andThen] at h ⊢
  rcases hx : x c with ⟨what | a, c'⟩
  · simp [hx] at h
  · rw [hx] at h
    exact ⟨a, rfl, Except.ok.inj h, rfl⟩

/-- A settlement leaves the row ahead of the claim, or leaves no row. -/
theorem settles_outlived {call : Call} (h : Settles claimed w call) :
    claimed.state = .inFlight ∧ Outlived claimed (step w call).2.tables := by
  obtain ⟨operation, faults⟩ := call
  -- A closed store answers every call with an error, so a settlement found it open.
  by_cases hopen : w.isOpen = true ∨ operation = .reopen
  · have hstep := @step_performs w ⟨operation, faults⟩ hopen
    simp only [Settles, hstep] at h ⊢
    rcases h with ⟨rfl, hok⟩ | ⟨now, batch, decisions, rfl, hmem, hok⟩
    · obtain ⟨released, hrelease, htrue, hdata⟩ := map_eq_ok hok
      obtain rfl : released = true := by simpa using htrue
      rcases releaseClaim_spec claimed ⟨w.tables, faults⟩ with ⟨what, herr, -⟩ | ⟨a, ha, hstate, ht', hcount⟩
      · simp [hrelease] at herr
      · obtain rfl : a = true := Except.ok.inj (ha.symm.trans hrelease)
        -- the claim is matched by its identity, so at most one row can be its own
        have hkey (r : QueuedEvent) (h : matchesClaim .inFlight claimed r = true) :
            identity r.event = identity claimed.event := (matchesClaim_iff.mp h).1
        obtain ⟨row, hrow, hmatch⟩ := (Table.count_eq_one_iff hkey).mp (hcount.mp rfl)
        refine ⟨hstate, ?_⟩
        simp only [Operation.program, hdata, ht']
        exact outlived_releaseOne hrow hmatch
    · obtain ⟨⟨⟩, happly, -, hdata⟩ := map_eq_ok hok
      rcases applyDecisions_spec now batch decisions ⟨w.tables, faults⟩ with
        ⟨what, herr, -⟩ | ⟨⟨⟩, -, hall, ht'⟩
      · simp [happly] at herr
      · obtain ⟨d, hd⟩ := exists_decision (applyDecisions_shape happly) hmem
        have houtlived := outlived_settleAll hall hd
        refine ⟨?_, ?_⟩
        · exact state_of_allSettleable hall hd
        · simp only [Operation.program, hdata, ht']
          exact houtlived
  · simp only [not_or, Bool.not_eq_true] at hopen
    rcases h with ⟨rfl, hok⟩ | ⟨now, batch, decisions, rfl, -, hok⟩ <;>
      simp [step, hopen.1] at hok

theorem run_append (w : World) (calls calls' : List Call) :
    run w (calls ++ calls') = run (run w calls) calls' :=
  List.foldl_append ..

/-- A claim that has been settled is refused ever after, by release and settlement alike, unless
its identity has been queued again and has come back, claim by claim, to the same attempt. -/
theorem settled_claim_refused_iff (t : Tables) (before : List Call) (settling : Call)
    (after : List Call) (claimed : QueuedEvent)
    (hsettled : Settles claimed (run (start t) before) settling) :
    Refused claimed (run (start t) (before ++ settling :: after)).tables ↔
      ¬(QueuedAgain claimed (step (run (start t) before) settling).2 after ∧
        ∃ r ∈ (run (start t) (before ++ settling :: after)).tables.intakeEvents,
          matchesClaim .inFlight claimed r = true) := by
  obtain ⟨hstate, houtlived⟩ := settles_outlived hsettled
  rw [refused_iff_dead hstate]
  constructor
  · rintro hdead ⟨-, r, hr, hmatch⟩
    simp [hdead r hr] at hmatch
  · intro h r hr
    by_contra hmatch
    refine h ⟨?_, r, hr, by simpa using hmatch⟩
    -- without a new insertion the settlement would have kept the claim dead
    by_contra hnew
    have hrun : run (start t) (before ++ settling :: after) =
        run (step (run (start t) before) settling).2 after := run_append ..
    rw [hrun] at hr
    exact hmatch ((run_outlived houtlived hnew).dead r hr)

/-! ## A Retransmission after Delivery -/

def retransmitted : Event := ⟨ascii "d1", ascii "b1", 7, ascii "payload", ascii "noon"⟩

/-- The claim of the first delivery. -/
def firstClaim : QueuedEvent := ⟨retransmitted, .inFlight, 1⟩

def untilClaimed : List Call := [⟨.reopen, []⟩, ⟨.insert retransmitted, []⟩, ⟨.claimPending 500, []⟩]

def delivered : Call := ⟨.applyDecisions [] [firstClaim] [⟨.accepted, []⟩], []⟩

/-- The event is delivered, received again and claimed again; the claim of the first delivery now
releases, and settles, the second. -/
theorem settled_claim_revived :
    let w := run (start Tables.empty)
      (untilClaimed ++ delivered :: [⟨.insert retransmitted, []⟩, ⟨.claimPending 500, []⟩])
    firstClaim ∈ handedOut (start Tables.empty) untilClaimed ∧
      Settles firstClaim (run (start Tables.empty) untilClaimed) delivered ∧
      (step w ⟨.releaseClaim firstClaim, []⟩).1 = .ok (.released true) ∧
      (step w delivered).1 = .ok .applied ∧ ¬Refused firstClaim w.tables := by
  refine ⟨by decide +kernel, .inr ⟨_, _, _, rfl, by simp, by decide +kernel⟩, by decide +kernel,
    by decide +kernel, fun h => (h.release []).1 ?_⟩
  decide +kernel

/-- Received again, but not yet claimed again. -/
theorem settled_claim_refused_retransmitted :
    Refused firstClaim (run (start Tables.empty)
      (untilClaimed ++ delivered :: [⟨.insert retransmitted, []⟩])).tables := by
  have hsettled : Settles firstClaim (run (start Tables.empty) untilClaimed) delivered :=
    .inr ⟨_, _, _, rfl, by simp, by decide +kernel⟩
  refine (settled_claim_refused_iff _ _ _ _ _ hsettled).mpr ?_
  rintro ⟨-, r, hr, hmatch⟩
  have hrows : ∀ r ∈ (run (start Tables.empty) (untilClaimed ++ delivered ::
      [⟨.insert retransmitted, []⟩])).tables.intakeEvents.rows,
      matchesClaim .inFlight firstClaim r = false := by
    decide +kernel
  simp [hrows r hr] at hmatch

end EquipmentMonitoring.Store
