import EquipmentMonitoring.Foundations.FileTable
import EquipmentMonitoring.Foundations.Sql

/-!
# The Queue File and its Schema (`initialize_schema`)

The file the gateway opens may be new, of an older version, or anything else. Its schema is brought
to version 2 in one transaction, abandoned claims return to pending, and what is not supported is
refused.

## Key Results

- `openFile_exec`: what the statements of the source make of a file, without faults
- `openFile_cases`: with faults, this or nothing
-/

namespace EquipmentMonitoring.Migration

open FileTable

/-! ## The File -/

/-- What the gateway uses of a database file; other tables, views, triggers and indexes are left
out. -/
structure QueueFile where
  userVersion : Int
  intakeEvents : Option FileTable
  /-- The index `intake_events_pending_order` exists. -/
  pendingOrder : Bool
  quarantinedEvents : Option FileTable

def queueState : Bytes := ascii "queue_state"

def attemptCount : Bytes := ascii "attempt_count"

def mqttPayload : Bytes := ascii "mqtt_payload"

def gatewayReceivedAt : Bytes := ascii "gateway_received_at"

def identityColumns : List Bytes := [ascii "device_id", ascii "boot_id", ascii "sequence_number"]

def pending : SqlValue := .text (ascii "pending")

def inFlight : SqlValue := .text (ascii "in_flight")

def stateColumn : Column where
  name := queueState
  declaration := "TEXT NOT NULL DEFAULT 'pending' CHECK (queue_state IN ('pending', 'in_flight'))"

def attemptColumn : Column where
  name := attemptCount
  declaration := "INTEGER NOT NULL DEFAULT 0 CHECK (attempt_count >= 0)"

def intakeColumns : List Column :=
  [⟨ascii "device_id", "TEXT NOT NULL"⟩, ⟨ascii "boot_id", "TEXT NOT NULL"⟩,
    ⟨ascii "sequence_number", "INTEGER NOT NULL CHECK (sequence_number >= 0)"⟩,
    ⟨mqttPayload, "TEXT NOT NULL"⟩, ⟨gatewayReceivedAt, "TEXT NOT NULL"⟩, stateColumn,
    attemptColumn]

def quarantineColumns : List Column :=
  [⟨ascii "device_id", "TEXT NOT NULL"⟩, ⟨ascii "boot_id", "TEXT NOT NULL"⟩,
    ⟨ascii "sequence_number", "INTEGER NOT NULL"⟩, ⟨mqttPayload, "TEXT NOT NULL"⟩,
    ⟨gatewayReceivedAt, "TEXT NOT NULL"⟩, ⟨attemptCount, "INTEGER NOT NULL"⟩,
    ⟨ascii "reason", "TEXT NOT NULL"⟩, ⟨ascii "quarantined_at", "TEXT NOT NULL"⟩]

theorem intake_keyed : ∀ name ∈ identityColumns, name ∈ intakeColumns.map Column.name := by decide

theorem intake_distinct : (foldedNames intakeColumns).Nodup := by decide

theorem quarantine_keyed : ∀ name ∈ identityColumns, name ∈ quarantineColumns.map Column.name := by
  decide

theorem quarantine_distinct : (foldedNames quarantineColumns).Nodup := by decide

def emptyIntake : FileTable :=
  .create intakeColumns identityColumns intake_keyed intake_distinct

def emptyQuarantine : FileTable :=
  .create quarantineColumns identityColumns quarantine_keyed quarantine_distinct

/-! ## The Statements -/

def readVersion : Sql QueueFile Unit := do
  let version ← Sql.query 2 QueueFile.userVersion
  if version < 0 ∨ 2 < version then Sql.raise "unsupported SQLite queue schema version"
  else Sql.ok ()

/-- CREATE TABLE IF NOT EXISTS intake_events. -/
def createIntake (file : QueueFile) : QueueFile :=
  { file with intakeEvents := some (file.intakeEvents.getD emptyIntake) }

/-- `table_columns`: a step for each column, and a last one. -/
def tableColumns : Sql QueueFile (List (Bytes × Nat)) := do
  let columns ← Sql.query 1 fun file => (file.intakeEvents.map FileTable.info).getD []
  Sql.calls (columns.length + 1)
  return columns

/-- The identity columns have their places in the key, and the others are there. -/
def supportedColumns (columns : List (Bytes × Nat)) : Bool :=
  columns.lookup (ascii "device_id") == some 1 && columns.lookup (ascii "boot_id") == some 2 &&
    columns.lookup (ascii "sequence_number") == some 3 && (columns.lookup mqttPayload).isSome &&
    (columns.lookup gatewayReceivedAt).isSome

/-- A statement that changes the queue table. -/
def alterIntake (f : FileTable → Except String FileTable) (file : QueueFile) :
    Except String (Unit × QueueFile) :=
  match file.intakeEvents with
  | none => .error "no such table: intake_events"
  | some t => (f t).map fun t' => ((), { file with intakeEvents := some t' })

/-- ALTER TABLE, for a column that was not listed. -/
def ensureColumn (columns : List (Bytes × Nat)) (c : Column) (v : SqlValue) : Sql QueueFile Unit :=
  if (columns.lookup c.name).isNone then Sql.statement 1 (alterIntake (addColumn c v))
  else Sql.ok ()

def isInvalid (row : Row) : Bool :=
  row.cell queueState == .null ||
    !((row.cell queueState).equals pending || (row.cell queueState).equals inFlight) ||
    row.cell attemptCount == .null || (row.cell attemptCount).isNegative

def countInvalid (file : QueueFile) : Nat :=
  ((file.intakeEvents.map FileTable.rows).getD []).countP isInvalid

def isInFlight (row : Row) : Bool := (row.cell queueState).equals inFlight

/-- UPDATE .. SET queue_state='pending' WHERE queue_state='in_flight'. -/
def recover (t : FileTable) : Except String FileTable := t.updateWhere isInFlight queueState pending

/-- What follows once the table has all columns. -/
def finishSchema : Sql QueueFile (Finish Unit) := do
  Sql.statement 1 fun file => .ok ((), { file with pendingOrder := true })
  Sql.statement 1 fun file => .ok ((), { file with
    quarantinedEvents := some (file.quarantinedEvents.getD emptyQuarantine) })
  -- both columns are there now, filled in for old rows
  let invalid ← Sql.query 2 countInvalid
  if invalid ≠ 0 then Sql.raise "SQLite queue contains invalid state or attempt count"
  else do
    Sql.statement 1 (alterIntake recover)
    Sql.statement 1 fun file => .ok ((), { file with userVersion := 2 })
    return .commit ()

/-- What follows once the columns are listed. -/
def migrateTable (columns : List (Bytes × Nat)) : Sql QueueFile (Finish Unit) :=
  if supportedColumns columns = false then
    Sql.raise "unsupported existing SQLite queue schema"
  else do
    ensureColumn columns stateColumn pending
    ensureColumn columns attemptColumn (.integer 0)
    finishSchema

/-- `initialize_schema`. -/
def schemaBody : Sql QueueFile (Finish Unit) := do
  readVersion
  Sql.statement 1 fun file => .ok ((), createIntake file)
  let columns ← tableColumns
  migrateTable columns

/-- The constructor. -/
def openFile : Sql QueueFile Unit := do
  Sql.calls 6
  Sql.transaction schemaBody

/-! ## The Queue Table -/

def Supported (version : Int) : Prop := 0 ≤ version ∧ version ≤ 2

/-- A column is as it was listed, or was added. -/
def Ensured (columns : List (Bytes × Nat)) (c : Column) (v : SqlValue) (t t' : FileTable) : Prop :=
  if (columns.lookup c.name).isNone then t.addColumn c v = .ok t' else t' = t

/-- What the statements make of the queue table. -/
structure Migrates (t t' : FileTable) : Prop where
  supported : supportedColumns t.info = true
  steps : ∃ t₁ t₂, Ensured t.info stateColumn pending t t₁ ∧
    Ensured t.info attemptColumn (.integer 0) t₁ t₂ ∧ t₂.rows.countP isInvalid = 0 ∧
    recover t₂ = .ok t'

theorem stable_ensureColumn (columns : List (Bytes × Nat)) (c : Column) (v : SqlValue) :
    Sql.Stable (ensureColumn columns c v) := by
  unfold ensureColumn
  split
  · exact Sql.stable_statement ..
  · exact Sql.stable_ok ()

theorem stable_tableColumns : Sql.Stable tableColumns :=
  Sql.stable_bind (Sql.stable_query ..) fun _ =>
    Sql.stable_bind (Sql.stable_calls _) fun _ => Sql.stable_ok _

theorem stable_readVersion : Sql.Stable readVersion := by
  refine Sql.stable_bind (Sql.stable_query ..) fun version => ?_
  split
  · exact Sql.stable_raise _
  · exact Sql.stable_ok _

theorem stable_finishSchema : Sql.Stable finishSchema := by
  refine Sql.stable_bind (Sql.stable_statement ..) fun _ => ?_
  refine Sql.stable_bind (Sql.stable_statement ..) fun _ => ?_
  refine Sql.stable_bind (Sql.stable_query ..) fun invalid => ?_
  split
  · exact Sql.stable_raise _
  · refine Sql.stable_bind (Sql.stable_statement ..) fun _ => ?_
    exact Sql.stable_bind (Sql.stable_statement ..) fun _ => Sql.stable_ok _

theorem stable_migrateTable (columns : List (Bytes × Nat)) : Sql.Stable (migrateTable columns) := by
  unfold migrateTable
  split
  · exact Sql.stable_raise _
  · refine Sql.stable_bind (stable_ensureColumn ..) fun _ => ?_
    exact Sql.stable_bind (stable_ensureColumn ..) fun _ => stable_finishSchema

theorem stable_schemaBody : Sql.Stable schemaBody := by
  refine Sql.stable_bind stable_readVersion fun _ => ?_
  refine Sql.stable_bind (Sql.stable_statement ..) fun _ => ?_
  exact Sql.stable_bind stable_tableColumns fun columns => stable_migrateTable columns

section Exec

variable {file file' : QueueFile} {t t' : FileTable} {columns : List (Bytes × Nat)}

theorem exec_readVersion : Sql.exec readVersion file = (.ok (), file') ↔
    Supported file.userVersion ∧ file' = file := by
  simp only [readVersion, Sql.exec_query_bind, Supported]
  split
  · next h =>
    simp only [Sql.exec_raise, Prod.mk.injEq, reduceCtorEq, false_and, false_iff, not_and]
    omega
  · next h =>
    simp only [Sql.exec_ok, Prod.mk.injEq, true_and]
    constructor
    · rintro rfl
      exact ⟨by omega, rfl⟩
    · rintro ⟨-, rfl⟩
      rfl

theorem exec_tableColumns : Sql.exec tableColumns file =
    (.ok ((file.intakeEvents.map FileTable.info).getD []), file) := by
  simp only [tableColumns, Sql.exec_query_bind]
  rw [Sql.exec_bind (Sql.stable_calls _), Sql.exec, Sql.calls_nofault]
  rfl

theorem exec_alterIntake {f : FileTable → Except String FileTable}
    (ht : file.intakeEvents = some t) :
    Sql.exec (Sql.statement 1 (alterIntake f)) file = (.ok (), file') ↔
      ∃ t', f t = .ok t' ∧ file' = { file with intakeEvents := some t' } := by
  simp only [Sql.exec_statement, alterIntake, ht]
  cases f t with
  | error what => simp [Except.map]
  | ok t' => simp [Except.map, eq_comm]

theorem exec_ensureColumn {c : Column} {v : SqlValue} (ht : file.intakeEvents = some t) :
    Sql.exec (ensureColumn columns c v) file = (.ok (), file') ↔
      ∃ t', Ensured columns c v t t' ∧ file' = { file with intakeEvents := some t' } := by
  unfold ensureColumn Ensured
  split
  · exact exec_alterIntake ht
  · simp only [Sql.exec_ok, Prod.mk.injEq, true_and, exists_eq_left]
    rw [← ht]
    exact eq_comm

/-- The file once its schema is initialised. -/
def QueueFile.initialised (file : QueueFile) (t : FileTable) : QueueFile where
  userVersion := 2
  intakeEvents := some t
  pendingOrder := true
  quarantinedEvents := some (file.quarantinedEvents.getD emptyQuarantine)

theorem exec_finishSchema {finish : Finish Unit} (ht : file.intakeEvents = some t) :
    Sql.exec finishSchema file = (.ok finish, file') ↔
      finish = .commit () ∧ t.rows.countP isInvalid = 0 ∧
        ∃ t', recover t = .ok t' ∧ file' = file.initialised t' := by
  have hcount : countInvalid { file with
      pendingOrder := true
      quarantinedEvents := some (file.quarantinedEvents.getD emptyQuarantine) } =
        t.rows.countP isInvalid := by
    rw [countInvalid, ht]
    rfl
  rw [← hcount]
  simp only [finishSchema, Sql.exec_statement_bind, Sql.exec_query_bind]
  split
  · next h => simp [h]
  · next h =>
    rw [not_not] at h
    simp only [Sql.exec_statement_bind, alterIntake, ht] at h ⊢
    -- the rows that were in flight go back to pending before the commit
    cases recover t with
    | error what => simp [Except.map]
    | ok t' =>
      simp only [Except.map, Sql.exec_pure, Prod.mk.injEq, Except.ok.injEq, h, true_and,
        exists_eq_left']
      exact and_congr eq_comm eq_comm

theorem exec_unit_bind {α : Type} {x : Sql QueueFile Unit} {f : Unit → Sql QueueFile α} {a : α}
    (hx : Sql.Stable x) : Sql.exec (x >>= f) file = (.ok a, file') ↔
      ∃ file₁, Sql.exec x file = (.ok (), file₁) ∧ Sql.exec (f ()) file₁ = (.ok a, file') := by
  rw [Sql.exec_bind_eq_ok hx]
  constructor
  · rintro ⟨⟨⟩, file₁, h⟩
    exact ⟨file₁, h⟩
  · rintro ⟨file₁, h⟩
    exact ⟨(), file₁, h⟩

theorem exec_migrateTable {finish : Finish Unit} (ht : file.intakeEvents = some t) :
    Sql.exec (migrateTable t.info) file = (.ok finish, file') ↔
      finish = .commit () ∧ ∃ t', Migrates t t' ∧ file' = file.initialised t' := by
  unfold migrateTable
  split
  · next hsupported =>
    -- A table of an unknown layout is refused, so it never migrates.
    have hnone (t' : FileTable) : ¬ Migrates t t' := fun h => by simp [h.supported] at hsupported
    simp [hnone]
  · next hsupported =>
    rw [Bool.not_eq_false] at hsupported
    rw [exec_unit_bind (stable_ensureColumn ..)]
    constructor
    · rintro ⟨file₁, h₁, h₂⟩
      obtain ⟨t₁, hstate, rfl⟩ := (exec_ensureColumn ht).mp h₁
      obtain ⟨file₂, h₂, h₃⟩ := (exec_unit_bind (stable_ensureColumn ..)).mp h₂
      obtain ⟨t₂, hattempt, rfl⟩ := (exec_ensureColumn rfl).mp h₂
      obtain ⟨hfinish, hvalid, t', hrecover, rfl⟩ := (exec_finishSchema rfl).mp h₃
      exact ⟨hfinish, t', ⟨hsupported, t₁, t₂, hstate, hattempt, hvalid, hrecover⟩, rfl⟩
    · rintro ⟨hfinish, t', ⟨-, t₁, t₂, hstate, hattempt, hvalid, hrecover⟩, rfl⟩
      refine ⟨_, (exec_ensureColumn ht).mpr ⟨t₁, hstate, rfl⟩, ?_⟩
      refine (exec_unit_bind (stable_ensureColumn ..)).mpr
        ⟨_, (exec_ensureColumn rfl).mpr ⟨t₂, hattempt, rfl⟩, ?_⟩
      exact (exec_finishSchema rfl).mpr ⟨hfinish, hvalid, t', hrecover, rfl⟩

theorem schemaBody_eq_ok {finish : Finish Unit} :
    Sql.exec schemaBody file = (.ok finish, file') ↔
      finish = .commit () ∧ Supported file.userVersion ∧
        ∃ t', Migrates (file.intakeEvents.getD emptyIntake) t' ∧ file' = file.initialised t' := by
  have hcreated : (createIntake file).intakeEvents =
      some (file.intakeEvents.getD emptyIntake) := rfl
  unfold schemaBody
  rw [exec_unit_bind stable_readVersion]
  simp only [exec_readVersion, and_assoc, exists_and_left, exists_eq_left, Sql.exec_statement_bind]
  rw [Sql.exec_bind stable_tableColumns, exec_tableColumns]
  simp only [hcreated, Option.map_some, Option.getD_some]
  rw [exec_migrateTable hcreated]
  exact and_left_comm

/-- Without faults, the constructor succeeds on supported files. -/
theorem openFile_exec : Sql.exec openFile file = (.ok (), file') ↔ Supported file.userVersion ∧
    ∃ t', Migrates (file.intakeEvents.getD emptyIntake) t' ∧ file' = file.initialised t' := by
  have hcalls : Sql.exec openFile file = Sql.exec (Sql.transaction schemaBody) file := by
    simp only [openFile, Sql.exec, bind, Sql.andThen, Sql.calls_nofault]
  rw [hcalls, Sql.exec_transaction_eq_ok stable_schemaBody]
  simp [schemaBody_eq_ok]

/-- The constructor throws and leaves the file alone, or does what it does without faults. -/
theorem openFile_cases (c : Connection QueueFile) :
    (∃ what, (openFile c).1 = .error what ∧ (openFile c).2.data = c.data) ∨
      ((openFile c).1 = .ok () ∧ Sql.exec openFile c.data = (.ok (), (openFile c).2.data)) := by
  rcases Sql.calls_transaction_cases 6 stable_schemaBody c with herr | ⟨⟨⟩, hok, hexec⟩
  · exact .inl herr
  · exact .inr ⟨hok, hexec⟩

end Exec

end EquipmentMonitoring.Migration
