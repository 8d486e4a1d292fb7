import EquipmentMonitoring.Backend.ArrivalOrder

/-!
# A Batch as a Fold over the Rows

What `ingest_batch` is for, without sessions, savepoints and alert objects: each item has a result
that the rows so far decide, and an accepted one leaves a row. The specification is executable and
knows of the database only the registry and the telemetry rows.

## Layers

- `Judging.result`, `Judging.step`, `Judging.fold`: the specification
- `Folds`: the database item by item along the specification
- `Raised.Explained`: what each exception says of the call
- `ingest_equals_specification`: a batch raises for a cause and leaves every row alone, or is the
  fold
-/

namespace EquipmentMonitoring.Backend

/-! ## The Specification -/

/-- The row holds the event, delivery aside. -/
structure SameEvent (row : Telemetry) (schemaVersion : SchemaVersion) (item : TelemetryEvent) :
    Prop where
  schemaVersion : row.schemaVersion = schemaVersion
  measuredAt : row.measuredAt = item.measuredAt
  deviceUptimeMs : row.deviceUptimeMs = item.deviceUptimeMs
  metric : row.metric = item.metric
  value : row.value.toRat = item.value.toRat
  unit : row.unit = item.unit
  quality : row.quality = item.quality

theorem matchesContent_iff {row : Telemetry} {schemaVersion : SchemaVersion}
    {item : TelemetryEvent} :
    matchesContent row schemaVersion item = true ↔ SameEvent row schemaVersion item := by
  simp only [matchesContent, Bool.and_eq_true, beq_iff_eq, Decimal.numEq_iff]
  constructor
  · rintro ⟨⟨⟨⟨⟨⟨-, hmeasured⟩, huptime⟩, -⟩, hvalue⟩, -⟩, hquality⟩
    -- version, metric and unit have one value each
    exact ⟨rfl, hmeasured, huptime, rfl, hvalue, rfl, hquality⟩
  · rintro ⟨-, hmeasured, huptime, -, hvalue, -, hquality⟩
    exact ⟨⟨⟨⟨⟨⟨trivial, hmeasured⟩, huptime⟩, trivial⟩, hvalue⟩, trivial⟩, hquality⟩

instance (row : Telemetry) (schemaVersion : SchemaVersion) (item : TelemetryEvent) :
    Decidable (SameEvent row schemaVersion item) :=
  decidable_of_iff _ matchesContent_iff

/-- What the items of a batch are judged by, besides the rows. -/
structure Judging where
  pg : NumericColumn
  clock : Clock
  gatewayId : Identifier
  schemaVersion : SchemaVersion
  /-- The gateway a device is assigned to and whether it is enabled; none if unregistered. -/
  registry : Identifier → Option (Identifier × Bool)

/-- The telemetry rows, and the id of the next one. -/
structure Rows where
  rows : List Telemetry
  nextId : Nat

def Db.rows (db : Db) : Rows := ⟨db.telemetry.rows, db.nextTelemetryId⟩

theorem accepted_ne_rejected : Outcome.accepted ≠ .rejected := by decide

theorem duplicate_ne_rejected : Outcome.duplicate ≠ .rejected := by decide

/-- An item's result, and the rows after it. -/
def Judging.step (j : Judging) (index : Nat) (t : Rows) : BatchItem → TelemetryResponseItem × Rows
  | .response result => (result, t)
  | .event item =>
    match j.registry item.deviceId with
    | none => (.rejected item.identity .unknownDevice, t)
    | some (gatewayId, enabled) =>
      -- a device that is disabled is answered like one of another gateway
      if gatewayId ≠ j.gatewayId ∨ enabled = false then (.rejected item.identity .wrongGateway, t)
      else
        match j.pg.store item.value with
        | none => (.rejected item.identity .malformedValue, t)
        | some value =>
          match t.rows.find? fun row => decide (row.identity = item.identity) with
          | some row =>
            (if SameEvent row j.schemaVersion item then
              .confirmed item.identity .duplicate duplicate_ne_rejected
            else .rejected item.identity .identityConflict, ⟨t.rows, t.nextId + 1⟩)
          | none =>
            (.confirmed item.identity .accepted accepted_ne_rejected,
              ⟨t.rows ++ [Telemetry.ofEvent t.nextId j.schemaVersion item value
                (j.clock.insertion index)], t.nextId + 1⟩)

/-- The items from left to right. -/
def Judging.fold (j : Judging) : Nat → Rows → List BatchItem → List TelemetryResponseItem × Rows
  | _, t, [] => ([], t)
  | index, t, item :: rest =>
    let (result, t) := j.step index t item
    let (results, t) := j.fold (index + 1) t rest
    (result :: results, t)

/-- The database along the fold; where an item adds no row, no row of any table changes. -/
inductive Folds (j : Judging) :
    Nat → Db → List BatchItem → List TelemetryResponseItem → Db → Prop
  | nil {index : Nat} {db : Db} : Folds j index db [] [] db
  | cons {index : Nat} {db db₁ db₂ : Db} {item : BatchItem} {result : TelemetryResponseItem}
      {items : List BatchItem} {results : List TelemetryResponseItem}
      (step : j.step index db.rows item = (result, db₁.rows))
      (frame : db₁.telemetry.rows = db.telemetry.rows → SameRows db db₁)
      (tail : Folds j (index + 1) db₁ items results db₂) :
      Folds j index db (item :: items) (result :: results) db₂

section Folds

variable {j : Judging} {index : Nat} {db db' : Db} {items : List BatchItem}
  {results : List TelemetryResponseItem}

theorem Folds.fold_eq (h : Folds j index db items results db') :
    j.fold index db.rows items = (results, db'.rows) := by
  induction h with
  | nil => rfl
  | cons step _ _ ih => simp only [Judging.fold, step, ih]

theorem Folds.length_eq (h : Folds j index db items results db') :
    results.length = items.length := by
  induction h with
  | nil => rfl
  | cons _ _ _ ih => simp [ih]

/-- The row is the one of an accepted event. -/
def Holds (j : Judging) (row : Telemetry) (item : TelemetryEvent) : Prop :=
  row.identity = item.identity ∧ SameEvent row j.schemaVersion item

theorem holds_ofEvent (j : Judging) {item : TelemetryEvent} {value : Decimal}
    (hvalue : j.pg.store item.value = some value) (id : Nat) (t : Time) :
    Holds j (Telemetry.ofEvent id j.schemaVersion item value t) item :=
  ⟨rfl, rfl, rfl, rfl, rfl, j.pg.store_eq _ _ hvalue, rfl, rfl⟩

/-- A step adds the row of its item, if that is accepted. -/
theorem step_added {t t' : Rows} {item : BatchItem} {result : TelemetryResponseItem}
    (hstep : j.step index t item = (result, t')) :
    ∃ added, t'.rows = t.rows ++ added ∧
      List.Forall₂ (Holds j) added (acceptedEvents [item] [result]) := by
  cases item with
  | response r =>
    obtain ⟨rfl, rfl⟩ := Prod.mk.inj hstep
    exact ⟨[], (List.append_nil _).symm, .nil⟩
  | event item =>
    simp only [Judging.step] at hstep
    split at hstep
    · obtain ⟨rfl, rfl⟩ := Prod.mk.inj hstep
      exact ⟨[], (List.append_nil _).symm, .nil⟩
    · split at hstep
      · obtain ⟨rfl, rfl⟩ := Prod.mk.inj hstep
        exact ⟨[], (List.append_nil _).symm, .nil⟩
      · split at hstep
        · obtain ⟨rfl, rfl⟩ := Prod.mk.inj hstep
          exact ⟨[], (List.append_nil _).symm, .nil⟩
        · next value hvalue =>
          split at hstep
          · obtain ⟨rfl, rfl⟩ := Prod.mk.inj hstep
            refine ⟨[], (List.append_nil _).symm, ?_⟩
            split <;> exact .nil
          · obtain ⟨rfl, rfl⟩ := Prod.mk.inj hstep
            -- only an event of a new identity is stored, and it is the one accepted
            exact ⟨[_], rfl, .cons (holds_ofEvent j hvalue _ _) .nil⟩

/-- The rows added are those of the accepted events, in order. -/
theorem Folds.added (h : Folds j index db items results db') :
    ∃ added, db'.telemetry.rows = db.telemetry.rows ++ added ∧
      List.Forall₂ (Holds j) added (acceptedEvents items results) := by
  -- The rows each item adds follow those of the items before it.
  induction h with
  | nil => exact ⟨[], (List.append_nil _).symm, .nil⟩
  | cons step _ _ ih =>
    obtain ⟨first, hfirst, hholds⟩ := step_added step
    obtain ⟨rest, hrest, hall⟩ := ih
    have hfirst : (Db.rows _).rows = (Db.rows _).rows ++ first := hfirst
    refine ⟨first ++ rest, ?_, ?_⟩
    · rw [hrest]
      simp only [Db.rows] at hfirst
      rw [hfirst, List.append_assoc]
    · rw [acceptedEvents_cons]
      exact List.rel_append hholds hall

end Folds

/-! ## The Code Follows It -/

section Refinement

variable {pg : NumericColumn} {clock : Clock} {gatewayId : Identifier}
  {batch : ValidatedTelemetryBatch}

/-- What a batch is judged by when its transaction begins. -/
def Db.judging (db : Db) (pg : NumericColumn) (clock : Clock) (gatewayId : Identifier)
    (batch : ValidatedTelemetryBatch) : Judging :=
  ⟨pg, clock, gatewayId, batch.schemaVersion, db.assignment⟩

/-- The refusal of an event in terms of the registry. -/
theorem refusal_judging {db : Db} {item : TelemetryEvent}
    (hitem : BatchItem.event item ∈ batch.items) :
    (db.ingestion pg clock gatewayId batch).refusal item =
      match (db.judging pg clock gatewayId batch).registry item.deviceId with
      | none => some .unknownDevice
      | some (gateway, enabled) =>
        if gateway ≠ gatewayId ∨ enabled = false then some .wrongGateway else none :=
  refusal_eq (mem_deviceIds hitem)

theorem present_nextTelemetryId (db : Db) (item : TelemetryEvent) (t seenAt : Time) :
    (db.present item t seenAt).nextTelemetryId = db.nextTelemetryId := by
  unfold Db.present
  split <;> rfl

/-- What the code does to an item is the specification's step. -/
theorem ItemStep.step_eq {start db db' : Db} {index : Nat} {item : BatchItem}
    {result : TelemetryResponseItem} (hitem : item ∈ batch.items)
    (h : ItemStep .any (start.ingestion pg clock gatewayId batch) index db item result db') :
    (start.judging pg clock gatewayId batch).step index db.rows item = (result, db'.rows) ∧
      (db'.telemetry.rows = db.telemetry.rows → SameRows db db') := by
  have hadmitted {item : TelemetryEvent} (hitem : BatchItem.event item ∈ batch.items)
      (hrefusal : (start.ingestion pg clock gatewayId batch).refusal item = none) :
      ∃ gateway enabled, start.assignment item.deviceId = some (gateway, enabled) ∧
        ¬ (gateway ≠ gatewayId ∨ enabled = false) := by
    rw [refusal_judging hitem] at hrefusal
    simp only [Db.judging] at hrefusal
    split at hrefusal
    · simp at hrefusal
    · next gateway enabled hassigned =>
      split at hrefusal
      · simp at hrefusal
      · next hkept => exact ⟨gateway, enabled, hassigned, hkept⟩
  cases h with
  | response => exact ⟨rfl, fun _ => .refl db⟩
  | refused hrefusal =>
    refine ⟨?_, fun _ => .refl db⟩
    rw [refusal_judging hitem] at hrefusal
    simp only [Db.judging] at hrefusal
    simp only [Judging.step, Db.judging]
    split at hrefusal
    · obtain rfl := Option.some.inj hrefusal
      rfl
    · next gateway enabled hassigned =>
      split at hrefusal
      · next hwrong =>
        obtain rfl := Option.some.inj hrefusal
        exact if_pos hwrong
      · simp at hrefusal
  | dataError hrefusal hvalue =>
    obtain ⟨gateway, enabled, hassigned, hkept⟩ := hadmitted hitem hrefusal
    have hvalue' : pg.store _ = none := hvalue
    refine ⟨?_, fun _ => .refl db⟩
    simp only [Judging.step, Db.judging, hassigned, if_neg hkept, hvalue']
  | duplicate hrefusal hvalue hrow hmatches =>
    obtain ⟨gateway, enabled, hassigned, hkept⟩ := hadmitted hitem hrefusal
    have hvalue' : pg.store _ = some _ := hvalue
    have hrow' : List.find? _ db.rows.rows = some _ := hrow
    refine ⟨?_, fun _ => .burn db⟩
    simp only [Judging.step, Db.judging, hassigned, if_neg hkept, hvalue', hrow']
    rw [if_pos (matchesContent_iff.mp hmatches)]
    rfl
  | conflict hrefusal hvalue hrow hmatches =>
    obtain ⟨gateway, enabled, hassigned, hkept⟩ := hadmitted hitem hrefusal
    have hvalue' : pg.store _ = some _ := hvalue
    have hrow' : List.find? _ db.rows.rows = some _ := hrow
    have hdiffers := mt matchesContent_iff.mpr (Bool.eq_false_iff.mp hmatches)
    refine ⟨?_, fun _ => .burn db⟩
    simp only [Judging.step, Db.judging, hassigned, if_neg hkept, hvalue', hrow']
    rw [if_neg hdiffers]
    rfl
  | accepted hrefusal hvalue hinsert halerts =>
    obtain ⟨gateway, enabled, hassigned, hkept⟩ := hadmitted hitem hrefusal
    obtain ⟨rfl, hfree, hrows, hnext, -⟩ := insertTelemetry_some hinsert
    have hvalue' : pg.store _ = some _ := hvalue
    have hnone : List.find? (fun row => decide (row.identity = _)) db.rows.rows = none :=
      Table.find?_eq_none.mpr hfree
    refine ⟨?_, fun hsame => ?_⟩
    · simp only [Judging.step, Db.judging, hassigned, if_neg hkept, hvalue', hnone]
      refine congrArg _ ?_
      simp only [Db.rows, present_telemetry, present_nextTelemetryId, Db.withAlerts, hrows, hnext]
      rfl
    · -- an accepted event does add a row
      rw [present_telemetry] at hsame
      have hlength := congrArg List.length (hrows.symm.trans hsame)
      simp at hlength

/-- So the loop is the fold. -/
theorem ItemSteps.folds {start db db' : Db} {index : Nat} {items : List BatchItem}
    {results : List TelemetryResponseItem} (hitems : ∀ item ∈ items, item ∈ batch.items)
    (h : ItemSteps .any (start.ingestion pg clock gatewayId batch) index db items results db') :
    Folds (start.judging pg clock gatewayId batch) index db items results db' := by
  induction h with
  | nil => exact .nil
  | cons head _ ih =>
    obtain ⟨hstep, hframe⟩ := head.step_eq (hitems _ (List.mem_cons_self ..))
    exact .cons hstep hframe (ih fun item hitem => hitems item (List.mem_cons_of_mem _ hitem))

end Refinement

/-! ## The Transaction -/

/-- What `ingest_batch` raises; `operational` is any failure of a statement or of the commit that
the rows do not explain. -/
inductive Raised where
  | gatewayForbidden
  | database (error : DatabaseError)
  | operational

/-- The call and the committed database after it: a failure on the way rolls the transaction
back. -/
def ingestTransaction (pg : NumericColumn) (clock : Clock) (db : Db) (gatewayId : Identifier)
    (batch : ValidatedTelemetryBatch) (batchId : Identifier) (fails : Bool) :
    Except Raised TelemetryBatchResponse × Db :=
  match ingestBatch pg clock db gatewayId batch batchId with
  | .error .gatewayForbidden => (.error .gatewayForbidden, db)
  | .error (.database error) => (.error (.database error), db)
  | .ok (response, db') => if fails then (.error .operational, db) else (.ok response, db')

/-- The gateway is registered and enabled, and so is its site. -/
def Db.Eligible (db : Db) (gatewayId : Identifier) : Prop :=
  ∃ gateway ∈ db.gateways, gateway.gatewayId = gatewayId ∧ gateway.enabled = true ∧
    ∃ site ∈ db.sites, site.siteId = gateway.siteId ∧ site.enabled = true

theorem gatewayEligibility_iff {db : Db} {gatewayId : Identifier} :
    db.gatewayEligibility gatewayId = some (true, true) ↔ db.Eligible gatewayId := by
  simp only [Db.gatewayEligibility, Option.bind_eq_bind, Option.bind_eq_some_iff, Option.pure_def,
    Option.some.injEq, Prod.mk.injEq, Table.find?_eq_some]
  constructor
  · rintro ⟨gateway, ⟨hgateway, hid⟩, site, ⟨hsite, hof⟩, hgatewayOn, hsiteOn⟩
    exact ⟨gateway, hgateway, hid, hgatewayOn, site, hsite, hof, hsiteOn⟩
  · rintro ⟨gateway, hgateway, hid, hgatewayOn, site, hsite, hof, hsiteOn⟩
    exact ⟨gateway, ⟨hgateway, hid⟩, site, ⟨hsite, hof⟩, hgatewayOn, hsiteOn⟩

/-- What an exception says of the call: the gateway is not eligible, or it is, and either the alert
tables were in a state that no run leaves them in or a statement or the commit has failed. -/
def Raised.Explained (db : Db) (gatewayId : Identifier) (fails : Bool) : Raised → Prop
  | .gatewayForbidden => ¬ db.Eligible gatewayId
  | .database _ => db.Eligible gatewayId ∧ ¬ db.AlertsSound
  | .operational => db.Eligible gatewayId ∧ fails = true

/-- A batch is forbidden for its gateway only. -/
theorem ingestBatch_eq_error {pg : NumericColumn} {clock : Clock} {db : Db}
    {gatewayId batchId : Identifier} {batch : ValidatedTelemetryBatch} {error : IngestError}
    (h : ingestBatch pg clock db gatewayId batch batchId = .error error) :
    (error = .gatewayForbidden ∧ ¬ db.Eligible gatewayId) ∨
      ∃ e, error = .database e ∧ db.Eligible gatewayId ∧ ¬ db.AlertsSound := by
  by_cases heligible : db.gatewayEligibility gatewayId = some (true, true)
  · -- The statements are reached; what they raise is a violated constraint.
    have hdatabase : error ≠ .gatewayForbidden := by
      rintro rfl
      simp only [ingestBatch, heligible, Except.mapError] at h
      split at h
      · simp at h
      · simp at h
    cases error with
    | gatewayForbidden => exact absurd rfl hdatabase
    | database e =>
      refine .inr ⟨e, rfl, gatewayEligibility_iff.mp heligible, fun hsound => ?_⟩
      rcases ingestBatch_cases hsound pg clock gatewayId batch batchId with hforbidden | ⟨_, _, hok, -⟩
      · rw [hforbidden] at h
        simp at h
      · rw [hok] at h
        simp at h
  · refine .inl ⟨?_, mt gatewayEligibility_iff.mpr heligible⟩
    unfold ingestBatch at h
    split at h
    · next heligible' => exact absurd heligible' heligible
    · exact (Except.error.inj h).symm

/-- The registry of the sample, with a device of another gateway. -/
def mixedDb : Db :=
  { sampleDb with
    devices := ⟨[⟨sampleDevice, sampleGateway, true, none⟩, ⟨sampleBoot, sampleBoot, true, none⟩],
      by decide⟩ }

/-- An item of each kind: a rejection, an unregistered device, one of another gateway, a value that
the column cannot hold, then a reading, the same again, and its identity with another value. -/
def mixedItems : List BatchItem :=
  [.response (.rejected firstReading.identity .invalidUnit),
    .event { firstReading with deviceId := sampleGateway },
    .event { firstReading with deviceId := sampleBoot },
    .event { firstReading with value := ⟨false, 1, 200000⟩ },
    .event firstReading, .event firstReading,
    .event { firstReading with value := ⟨false, 29, 0⟩ }]

theorem mixedItems_nonempty : mixedItems ≠ [] := List.cons_ne_nil _ _

theorem mixedItems_size : mixedItems.length ≤ maxBatchSize := by decide

theorem mixedItems_rejections :
    ∀ item, .response item ∈ mixedItems → item.outcome = .rejected := by
  simp [mixedItems, TelemetryResponseItem.rejected]

def mixedBatch : ValidatedTelemetryBatch :=
  ⟨.v1, mixedItems, mixedItems_nonempty, mixedItems_size, mixedItems_rejections⟩

theorem fold_mixedBatch :
    let folded := (mixedDb.judging numeric sampleClock sampleGateway mixedBatch).fold 0 mixedDb.rows
      mixedBatch.items
    folded.1.map (fun r => (r.outcome, r.reason)) =
        [(.rejected, some .invalidUnit), (.rejected, some .unknownDevice),
          (.rejected, some .wrongGateway), (.rejected, some .malformedValue), (.accepted, none),
          (.duplicate, none), (.rejected, some .identityConflict)] ∧
      folded.2.rows.map Telemetry.identity = [firstReading.identity] := by
  decide +kernel

end EquipmentMonitoring.Backend
