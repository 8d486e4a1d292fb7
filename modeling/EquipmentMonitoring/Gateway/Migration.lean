import EquipmentMonitoring.Gateway.QueueFile
import EquipmentMonitoring.Gateway.StoreSpec

/-!
# Opening a Queue File

Whatever the file, it is refused and left alone, or its rows are kept and all of them are pending.

## Key Results

- `exists_migrates`: which queue tables are opened
- `Migrates.migrated`, `keptRow_migratedRow`: what becomes of their rows
- `open_migrates_iff`: when opening does what it should
- `openFile_encode`: on files of the current version it is `Store.openStore`
-/

namespace EquipmentMonitoring.Migration

open FileTable

/-! ## The Columns -/

section Columns

variable {t t₁ t' : FileTable} {c : Column} {v : SqlValue}

theorem prefix_of_places {key : List Bytes}
    (h₁ : ascii "device_id" ∈ key ∧ key.idxOf (ascii "device_id") = 0)
    (h₂ : ascii "boot_id" ∈ key ∧ key.idxOf (ascii "boot_id") = 1)
    (h₃ : ascii "sequence_number" ∈ key ∧ key.idxOf (ascii "sequence_number") = 2) :
    ∃ rest, key = identityColumns ++ rest := by
  -- The place of a name in the key is where the key has it.
  have hat {name : Bytes} {place : Nat} (h : name ∈ key ∧ key.idxOf name = place) :
      key[place]? = some name := by
    rw [← h.2, List.getElem?_eq_getElem (List.idxOf_lt_length_of_mem h.1), List.getElem_idxOf]
  have hd := hat h₁
  have hb := hat h₂
  have hs := hat h₃
  match key, hd, hb, hs with
  | a :: b :: c :: rest, hd, hb, hs =>
    refine ⟨rest, ?_⟩
    rw [List.getElem?_cons_zero, Option.some.injEq] at hd
    rw [List.getElem?_cons_succ, List.getElem?_cons_zero, Option.some.injEq] at hb
    rw [List.getElem?_cons_succ, List.getElem?_cons_succ, List.getElem?_cons_zero,
      Option.some.injEq] at hs
    rw [hd, hb, hs]
    rfl

theorem places_of_prefix {key rest : List Bytes} (h : key = identityColumns ++ rest) :
    (ascii "device_id" ∈ key ∧ key.idxOf (ascii "device_id") = 0) ∧
    (ascii "boot_id" ∈ key ∧ key.idxOf (ascii "boot_id") = 1) ∧
    ascii "sequence_number" ∈ key ∧ key.idxOf (ascii "sequence_number") = 2 := by
  have hmem : ∀ name ∈ identityColumns, name ∈ key ∧ key.idxOf name = identityColumns.idxOf name := by
    intro name hname
    rw [h, List.idxOf_append_of_mem hname]
    exact ⟨List.mem_append_left _ hname, rfl⟩
  exact ⟨hmem _ (by decide), hmem _ (by decide), hmem _ (by decide)⟩

theorem supportedColumns_iff : supportedColumns t.info = true ↔
    (∃ rest, t.primaryKey = identityColumns ++ rest) ∧ mqttPayload ∈ t.names ∧
      gatewayReceivedAt ∈ t.names := by
  -- table_info counts the places of the primary key from one.
  have hplace (name : Bytes) (place : Nat) : t.info.lookup name = some (place + 1) ↔
      name ∈ t.primaryKey ∧ t.primaryKey.idxOf name = place := by
    rw [info_lookup]
    by_cases hkey : name ∈ t.primaryKey
    · have hname : name ∈ t.names := t.keyed name hkey
      simp [hname, hkey]
    · by_cases hname : name ∈ t.names <;> simp [hname, hkey]
  have hpresent (name : Bytes) : (t.info.lookup name).isSome = true ↔ name ∈ t.names := by
    rw [info_lookup]
    split <;> simp_all
  simp only [supportedColumns, Bool.and_eq_true, beq_iff_eq, hplace, hpresent]
  constructor
  · rintro ⟨⟨⟨⟨h₁, h₂⟩, h₃⟩, hpayload⟩, hreceipt⟩
    exact ⟨prefix_of_places h₁ h₂ h₃, hpayload, hreceipt⟩
  · rintro ⟨⟨rest, hkey⟩, hpayload, hreceipt⟩
    obtain ⟨h₁, h₂, h₃⟩ := places_of_prefix hkey
    exact ⟨⟨⟨⟨h₁, h₂⟩, h₃⟩, hpayload⟩, hreceipt⟩

/-! ## The Rows -/

/-- A row with a cell in a column, the given one if it had none. -/
def ensureCell (name : Bytes) (v : SqlValue) (row : Row) : Row :=
  if (row.lookup name).isSome then row else row ++ [(name, v)]

theorem lookup_ensureCell (name other : Bytes) (v : SqlValue) (row : Row) :
    (ensureCell name v row).lookup other =
      if other = name then some ((row.lookup name).getD v) else row.lookup other := by
  unfold ensureCell
  split
  · next h =>
    by_cases ho : other = name
    · subst ho
      obtain ⟨w, hw⟩ := Option.isSome_iff_exists.mp h
      rw [if_pos rfl, hw, Option.getD_some]
    · rw [if_neg ho]
  · next h =>
    have hnone : row.lookup name = none := Option.not_isSome_iff_eq_none.mp h
    rw [Row.lookup_append row name other v (Row.lookup_eq_none.mp hnone), hnone, Option.getD_none]

/-- A table whose column was ensured. -/
structure Ensures (c : Column) (v : SqlValue) (t t' : FileTable) : Prop where
  rows : t'.rows = t.rows.map (ensureCell c.name v)
  primaryKey : t'.primaryKey = t.primaryKey
  names : ∀ name, name ∈ t'.names ↔ name = c.name ∨ name ∈ t.names
  folded : ∀ name, name ∈ foldedNames t'.columns ↔
    name = foldCase c.name ∨ name ∈ foldedNames t.columns

theorem Ensured.ensures {columns : List (Bytes × Nat)} (h : Ensured columns c v t t')
    (hcolumns : (columns.lookup c.name).isNone = true ↔ c.name ∉ t.names) : Ensures c v t t' := by
  unfold Ensured at h
  split at h
  · next hnone =>
    -- the column is added, and every row takes its default
    have hnew := hcolumns.mp hnone
    obtain ⟨-, hcols, hkey, hrows⟩ := addColumn_eq_ok.mp h
    refine ⟨?_, hkey, fun name => ?_, fun name => ?_⟩
    · rw [hrows, withCell]
      refine List.map_congr_left fun row hrow => ?_
      rw [ensureCell, if_neg]
      rw [Row.lookup_isSome, t.complete row hrow]
      exact hnew
    · rw [FileTable.names, hcols, List.map_append, List.mem_append, or_comm]
      simp [FileTable.names]
    · rw [foldedNames, hcols, List.map_append, List.mem_append, or_comm]
      simp [foldedNames]
  · next hsome =>
    subst h
    -- the column was there, and no row is touched
    have hold : c.name ∈ t'.names := by
      by_contra hnew
      exact hsome (hcolumns.mpr hnew)
    refine ⟨?_, rfl, fun name => ?_, fun name => ?_⟩
    · refine ((List.map_congr_left fun row hrow => ?_).trans (List.map_id _)).symm
      rw [ensureCell, if_pos]
      · rfl
      · rw [Row.lookup_isSome, t'.complete row hrow]
        exact hold
    · refine ⟨.inr, ?_⟩
      rintro (rfl | hname)
      · exact hold
      · exact hname
    · refine ⟨.inr, ?_⟩
      rintro (rfl | hname)
      · obtain ⟨c', hc', heq⟩ := List.mem_map.mp hold
        exact List.mem_map.mpr ⟨c', hc', congrArg foldCase heq⟩
      · exact hname

/-- A column can be added unless another one has its name in other letters. -/
theorem exists_ensured {columns : List (Bytes × Nat)}
    (hcolumns : (columns.lookup c.name).isNone = true ↔ c.name ∉ t.names) :
    (∃ t', Ensured columns c v t t') ↔
      c.name ∈ t.names ∨ foldCase c.name ∉ foldedNames t.columns := by
  unfold Ensured
  by_cases hname : c.name ∈ t.names
  · simp [mt hcolumns.mp (not_not.mpr hname), hname]
  · simp only [if_pos (hcolumns.mpr hname), hname, false_or]
    constructor
    · rintro ⟨t', ht'⟩
      exact (addColumn_eq_ok.mp ht').1
    · intro hfolded
      exact ⟨_, dif_neg hfolded⟩

/-- Columns that are listed are there. -/
theorem info_isNone (t : FileTable) (name : Bytes) :
    (t.info.lookup name).isNone = true ↔ name ∉ t.names := by
  rw [info_lookup]
  split <;> simp_all

def recoverRow (row : Row) : Row :=
  if isInFlight row then row.setCell queueState pending else row

/-- What becomes of a row of any version. -/
def migratedRow (row : Row) : Row :=
  recoverRow (ensureCell attemptCount (.integer 0) (ensureCell queueState pending row))

/-- A state that is neither of the two, or an attempt count that is none. -/
def InvalidRow (row : Row) : Prop :=
  (∃ v, row.lookup queueState = some v ∧ v ≠ pending ∧ v ≠ inFlight) ∨
    ∃ v, row.lookup attemptCount = some v ∧ (v = .null ∨ v.isNegative = true)

theorem attemptCount_ne : attemptCount ≠ queueState := by decide

theorem equals_pending {v : SqlValue} : v.equals pending = true ↔ v = pending :=
  SqlValue.equals_text

theorem equals_inFlight {v : SqlValue} : v.equals inFlight = true ↔ v = inFlight :=
  SqlValue.equals_text

/-- The check of the source is on the row with both columns. -/
theorem isInvalid_ensured (row : Row) :
    isInvalid (ensureCell attemptCount (.integer 0) (ensureCell queueState pending row)) = true ↔
      InvalidRow row := by
  set full := ensureCell attemptCount (.integer 0) (ensureCell queueState pending row) with hfull
  have hstate : full.cell queueState = (row.lookup queueState).getD pending := by
    rw [Row.cell, hfull, lookup_ensureCell, if_neg attemptCount_ne.symm, lookup_ensureCell,
      if_pos rfl, Option.getD_some]
  have hattempt : full.cell attemptCount = (row.lookup attemptCount).getD (.integer 0) := by
    rw [Row.cell, hfull, lookup_ensureCell, if_pos rfl, lookup_ensureCell, if_neg attemptCount_ne,
      Option.getD_some]
  -- A row without the column gets a default that passes the check.
  have hstates : (full.cell queueState = .null ∨ (full.cell queueState ≠ pending ∧
      full.cell queueState ≠ inFlight)) ↔
        ∃ v, row.lookup queueState = some v ∧ v ≠ pending ∧ v ≠ inFlight := by
    rw [hstate]
    cases row.lookup queueState with
    | none => simp [pending]
    | some v =>
      simp only [Option.getD_some, Option.some.injEq, exists_eq_left']
      constructor
      · rintro (rfl | h)
        · simp [pending, inFlight]
        · exact h
      · exact .inr
  have hattempts : (full.cell attemptCount = .null ∨ (full.cell attemptCount).isNegative = true) ↔
      ∃ v, row.lookup attemptCount = some v ∧ (v = .null ∨ v.isNegative = true) := by
    rw [hattempt]
    cases row.lookup attemptCount with
    | none => simp [SqlValue.isNegative]
    | some v => simp
  rw [InvalidRow, ← hstates, ← hattempts]
  simp only [isInvalid, Bool.or_eq_true, beq_iff_eq, Bool.not_eq_true', ← Bool.not_eq_true,
    equals_pending, equals_inFlight, not_or, or_assoc, ne_eq]

/-- What is kept of a row. -/
structure KeptRow (row row' : Row) : Prop where
  cells : ∀ name, name ≠ queueState → name ≠ attemptCount → row'.lookup name = row.lookup name
  state : row'.lookup queueState = some pending
  attempts : row'.lookup attemptCount = some ((row.lookup attemptCount).getD (.integer 0))

theorem lookup_recoverRow {row : Row} {name : Bytes} (h : name ≠ queueState) :
    (recoverRow row).lookup name = row.lookup name := by
  unfold recoverRow
  split
  · rw [Row.lookup_setCell, if_neg h]
  · rfl

theorem keptRow_migratedRow {row : Row} (h : ¬ InvalidRow row) : KeptRow row (migratedRow row) := by
  refine ⟨fun name hstate hattempt => ?_, ?_, ?_⟩
  · rw [migratedRow, lookup_recoverRow hstate, lookup_ensureCell, if_neg hattempt,
      lookup_ensureCell, if_neg hstate]
  · set full := ensureCell attemptCount (.integer 0) (ensureCell queueState pending row) with hfull
    -- The state is the row's own if it had one, and pending otherwise.
    have hlookup : full.lookup queueState = some ((row.lookup queueState).getD pending) := by
      rw [hfull, lookup_ensureCell, if_neg attemptCount_ne.symm, lookup_ensureCell, if_pos rfl]
    rw [migratedRow, ← hfull, recoverRow, isInFlight, Row.cell, hlookup, Option.getD_some]
    split
    · rw [Row.lookup_setCell, if_pos rfl, hlookup]
      rfl
    · next hstate =>
      rw [equals_inFlight] at hstate
      rw [hlookup]
      cases hcell : row.lookup queueState with
      | none => rfl
      | some v =>
        rw [hcell, Option.getD_some] at hstate
        -- neither pending nor in flight: the row would be invalid
        by_contra hpending
        exact h (.inl ⟨v, hcell, fun heq => hpending (by rw [heq]; rfl), hstate⟩)
  · rw [migratedRow, lookup_recoverRow attemptCount_ne, lookup_ensureCell, if_pos rfl,
      lookup_ensureCell, if_neg attemptCount_ne]

/-- What the statements make of a table, without its intermediate forms. -/
structure Migrated (t t' : FileTable) : Prop where
  rows : t'.rows = t.rows.map migratedRow
  primaryKey : t'.primaryKey = t.primaryKey
  names : ∀ name, name ∈ t'.names ↔ name = queueState ∨ name = attemptCount ∨ name ∈ t.names

/-- Nothing but its key stands against opening a table. -/
structure Usable (t : FileTable) : Prop where
  payload : mqttPayload ∈ t.names
  receipt : gatewayReceivedAt ∈ t.names
  state : queueState ∈ t.names ∨ foldCase queueState ∉ foldedNames t.columns
  attempts : attemptCount ∈ t.names ∨ foldCase attemptCount ∉ foldedNames t.columns
  valid : ∀ row ∈ t.rows, ¬ InvalidRow row
  recoverable : KeysDistinct (t.primaryKey.filter fun name => name ≠ queueState) t.rows

theorem cell_migratedRow {row : Row} {name : Bytes} (hname : name ∈ row.names)
    (h : name ≠ queueState) : (migratedRow row).cell name = row.cell name := by
  rw [Row.cell, migratedRow, lookup_recoverRow h, lookup_ensureCell, lookup_ensureCell,
    lookup_ensureCell, if_neg h, if_neg attemptCount_ne, Row.cell]
  split
  · next hattempt =>
    subst hattempt
    obtain ⟨v, hv⟩ := Option.ne_none_iff_exists'.mp fun hnone => Row.lookup_eq_none.mp hnone hname
    rw [hv]
    rfl
  · rfl

/-- Pending rows differ in the rest of their key. -/
theorem sameKey_migratedRow {key : List Bytes} {r r' : Row}
    (hkey : ∃ rest, key = identityColumns ++ rest) (hr : ∀ name ∈ key, name ∈ r.names)
    (hr' : ∀ name ∈ key, name ∈ r'.names) (hvalid : ¬ InvalidRow r) (hvalid' : ¬ InvalidRow r') :
    Row.sameKey key (migratedRow r) (migratedRow r') =
      Row.sameKey (key.filter fun name => name ≠ queueState) r r' := by
  have hfirst : ascii "device_id" ∈ key := by
    obtain ⟨rest, rfl⟩ := hkey
    exact List.mem_append_left _ (by decide)
  have hne : key.isEmpty = false := List.isEmpty_eq_false_iff.mpr (List.ne_nil_of_mem hfirst)
  have hne' : (key.filter fun name => name ≠ queueState).isEmpty = false := by
    refine List.isEmpty_eq_false_iff.mpr (List.ne_nil_of_mem (a := ascii "device_id") ?_)
    exact List.mem_filter.mpr ⟨hfirst, by decide⟩
  rw [Row.sameKey, Row.sameKey, hne, hne', Bool.not_false, Bool.true_and, Bool.true_and,
    Bool.eq_iff_iff, List.all_eq_true, List.all_eq_true]
  -- Only the state changes, and there all rows come to agree.
  have hcells (name : Bytes) (hname : name ∈ key) (h : name ≠ queueState) :
      ((migratedRow r).cell name).equals ((migratedRow r').cell name) =
        (r.cell name).equals (r'.cell name) := by
    rw [cell_migratedRow (hr name hname) h, cell_migratedRow (hr' name hname) h]
  constructor
  · intro hall name hname
    obtain ⟨hmem, h⟩ := List.mem_filter.mp hname
    rw [← hcells name hmem (of_decide_eq_true h)]
    exact hall name hmem
  · intro hall name hname
    by_cases h : name = queueState
    · subst h
      rw [Row.cell, Row.cell, (keptRow_migratedRow hvalid).state,
        (keptRow_migratedRow hvalid').state]
      rfl
    · rw [hcells name hname h]
      exact hall name (List.mem_filter.mpr ⟨hname, decide_eq_true h⟩)

theorem keysDistinct_migratedRow (hkey : ∃ rest, t.primaryKey = identityColumns ++ rest)
    (hvalid : ∀ row ∈ t.rows, ¬ InvalidRow row) :
    KeysDistinct t.primaryKey (t.rows.map migratedRow) ↔
      KeysDistinct (t.primaryKey.filter fun name => name ≠ queueState) t.rows := by
  have hnames : ∀ row ∈ t.rows, ∀ name ∈ t.primaryKey, name ∈ row.names := by
    intro row hrow name hname
    rw [t.complete row hrow]
    exact t.keyed name hname
  rw [KeysDistinct, List.pairwise_map, KeysDistinct]
  refine List.Pairwise.iff_of_mem fun {r r'} hr hr' => ?_
  rw [sameKey_migratedRow hkey (hnames r hr) (hnames r' hr') (hvalid r hr) (hvalid r' hr')]

/-- The steps that lead to a migrated table. -/
theorem migrates_steps {t₂ : FileTable} (h₁ : Ensures stateColumn pending t t₁)
    (h₂ : Ensures attemptColumn (.integer 0) t₁ t₂) :
    (t₂.rows.countP isInvalid = 0 ↔ ∀ row ∈ t.rows, ¬ InvalidRow row) ∧
      t₂.primaryKey = t.primaryKey ∧
      updated isInFlight queueState pending t₂.rows = t.rows.map migratedRow ∧
      ∀ name, name ∈ t₂.names ↔ name = queueState ∨ name = attemptCount ∨ name ∈ t.names := by
  have hfull : t₂.rows = t.rows.map fun row =>
      ensureCell attemptCount (.integer 0) (ensureCell queueState pending row) := by
    rw [h₂.rows, h₁.rows, List.map_map]
    rfl
  refine ⟨?_, h₂.primaryKey.trans h₁.primaryKey, ?_, fun name => ?_⟩
  · rw [List.countP_eq_zero, hfull, List.forall_mem_map]
    simp only [isInvalid_ensured]
  · rw [hfull, updated, List.map_map]
    rfl
  · rw [h₂.names, h₁.names, or_left_comm]
    rfl

theorem absent_attempts (h₁ : Ensures stateColumn pending t t₁) :
    (t.info.lookup attemptColumn.name).isNone = true ↔ attemptColumn.name ∉ t₁.names := by
  have hne : attemptColumn.name ≠ stateColumn.name := attemptCount_ne
  rw [info_isNone, h₁.names, not_or]
  simp [hne]

theorem Migrates.migrated (h : Migrates t t') : Migrated t t' := by
  obtain ⟨-, t₁, t₂, h₁, h₂, -, hrecover⟩ := h
  have hstate := h₁.ensures (info_isNone t _)
  have hattempts := h₂.ensures (absent_attempts hstate)
  obtain ⟨-, hkey₂, hupdated, hnames⟩ := migrates_steps hstate hattempts
  obtain ⟨-, hcolumns, hkey, hrows⟩ := updateWhere_eq_ok.mp hrecover
  refine ⟨hrows.trans hupdated, hkey.trans hkey₂, fun name => ?_⟩
  rw [FileTable.names, hcolumns]
  exact hnames name

/-- Which tables are opened. -/
theorem exists_migrates :
    (∃ t', Migrates t t') ↔ (∃ rest, t.primaryKey = identityColumns ++ rest) ∧ Usable t := by
  have hfolded : foldCase attemptColumn.name ≠ foldCase stateColumn.name := by decide
  constructor
  · rintro ⟨t', hsupported, t₁, t₂, h₁, h₂, hvalid, hrecover⟩
    have hstate := h₁.ensures (info_isNone t _)
    have hattempts := h₂.ensures (absent_attempts hstate)
    obtain ⟨hcount, hkey₂, hupdated, -⟩ := migrates_steps hstate hattempts
    obtain ⟨hbegin, hpayload, hreceipt⟩ := supportedColumns_iff.mp hsupported
    have hrows := hcount.mp hvalid
    obtain ⟨hdistinct, -⟩ := updateWhere_eq_ok.mp hrecover
    rw [hupdated, hkey₂, keysDistinct_migratedRow hbegin hrows] at hdistinct
    -- what is left is that neither column clashes with one in another case
    refine ⟨hbegin, hpayload, hreceipt, ?_, ?_, hrows, hdistinct⟩
    · exact (exists_ensured (info_isNone t _)).mp ⟨t₁, h₁⟩
    · have hadded := (exists_ensured (absent_attempts hstate)).mp ⟨t₂, h₂⟩
      rw [hstate.names, hstate.folded] at hadded
      refine hadded.imp (fun h => h.resolve_left attemptCount_ne) fun h => ?_
      exact fun hmem => h (.inr hmem)
  · rintro ⟨hbegin, husable⟩
    obtain ⟨t₁, h₁⟩ := (exists_ensured (c := stateColumn) (v := pending) (info_isNone t _)).mpr
      husable.state
    have hstate := h₁.ensures (info_isNone t _)
    obtain ⟨t₂, h₂⟩ : ∃ t₂, Ensured t.info attemptColumn (.integer 0) t₁ t₂ := by
      refine (exists_ensured (absent_attempts hstate)).mpr ?_
      rw [hstate.names, hstate.folded, not_or]
      exact husable.attempts.imp .inr fun h => ⟨hfolded, h⟩
    have hattempts := h₂.ensures (absent_attempts hstate)
    obtain ⟨hcount, hkey₂, hupdated, -⟩ := migrates_steps hstate hattempts
    have hdistinct : KeysDistinct t₂.primaryKey (updated isInFlight queueState pending t₂.rows) := by
      rw [hupdated, hkey₂, keysDistinct_migratedRow hbegin husable.valid]
      exact husable.recoverable
    exact ⟨_, supportedColumns_iff.mpr ⟨hbegin, husable.payload, husable.receipt⟩, t₁, t₂, h₁, h₂,
      hcount.mpr husable.valid, dif_pos hdistinct⟩

/-- A migrated table is migrated to itself. -/
theorem Migrates.again (h : Migrates t t') : Migrates t' t' := by
  obtain ⟨hbegin, husable⟩ := exists_migrates.mp ⟨t', h⟩
  have hmigrated := h.migrated
  have hnames (name : Bytes) (hname : name ∈ t.names) : name ∈ t'.names :=
    (hmigrated.names name).mpr (.inr (.inr hname))
  -- Every row is pending with a proper count: the second run finds nothing to change.
  have hkept : ∀ row' ∈ t'.rows, isInvalid row' = false ∧ isInFlight row' = false := by
    intro row' hrow'
    rw [hmigrated.rows] at hrow'
    obtain ⟨row, hrow, rfl⟩ := List.mem_map.mp hrow'
    have hvalid := husable.valid row hrow
    have hkept := keptRow_migratedRow hvalid
    have hstate : (migratedRow row).cell queueState = pending := by
      rw [Row.cell, hkept.state, Option.getD_some]
    have hattempt : (migratedRow row).cell attemptCount =
        (row.lookup attemptCount).getD (.integer 0) := by
      rw [Row.cell, hkept.attempts, Option.getD_some]
    have hcount : (row.lookup attemptCount).getD (.integer 0) ≠ .null ∧
        ((row.lookup attemptCount).getD (.integer 0)).isNegative = false := by
      cases hlookup : row.lookup attemptCount with
      | none => simp [SqlValue.isNegative]
      | some v =>
        refine ⟨fun hnull => hvalid (.inr ⟨v, hlookup, .inl hnull⟩), ?_⟩
        exact Bool.eq_false_iff.mpr fun hneg => hvalid (.inr ⟨v, hlookup, .inr hneg⟩)
    constructor
    · rw [isInvalid, hstate, hattempt, hcount.2, beq_eq_false_iff_ne.mpr hcount.1]
      rfl
    · rw [isInFlight, hstate]
      rfl
  have hupdated : updated isInFlight queueState pending t'.rows = t'.rows := by
    refine (List.map_congr_left fun row hrow => ?_).trans (List.map_id _)
    rw [if_neg (Bool.not_eq_true _ ▸ (hkept row hrow).2)]
    rfl
  refine ⟨?_, t', t', ?_, ?_, ?_, ?_⟩
  · rw [supportedColumns_iff, hmigrated.primaryKey]
    exact ⟨hbegin, hnames _ husable.payload, hnames _ husable.receipt⟩
  · have hstate : stateColumn.name ∈ t'.names := (hmigrated.names _).mpr (.inl rfl)
    rw [Ensured, if_neg (mt (info_isNone t' _).mp (not_not.mpr hstate))]
  · have hattempts : attemptColumn.name ∈ t'.names := (hmigrated.names _).mpr (.inr (.inl rfl))
    rw [Ensured, if_neg (mt (info_isNone t' _).mp (not_not.mpr hattempts))]
  · refine List.countP_eq_zero.mpr fun row hrow => ?_
    rw [(hkept row hrow).1]
    exact Bool.false_ne_true
  · refine updateWhere_eq_ok.mpr ⟨?_, rfl, rfl, hupdated.symm⟩
    rw [hupdated]
    exact t'.keysDistinct

end Columns

/-! ## Opening -/

/-- What a constructor call should do with a file, and what it should make of it. -/
structure Opens (file : QueueFile) (outcome : Except String Unit) (file' : QueueFile) : Prop where
  refused : ∀ what, outcome = .error what → file' = file
  rows : outcome = .ok () → ∃ t', file'.intakeEvents = some t' ∧
    List.Forall₂ KeptRow ((file.intakeEvents.map FileTable.rows).getD []) t'.rows
  quarantined : outcome = .ok () → (file'.quarantinedEvents.map FileTable.rows).getD [] =
    (file.quarantinedEvents.map FileTable.rows).getD []
  current : outcome = .ok () → file'.userVersion = 2
  version : ¬ Supported file.userVersion → outcome ≠ .ok ()
  key : ∀ t, file.intakeEvents = some t → t.primaryKey ≠ identityColumns → outcome ≠ .ok ()
  valid : ∀ t, file.intakeEvents = some t → ∀ row ∈ t.rows, InvalidRow row → outcome ≠ .ok ()
  again : outcome = .ok () → (Sql.exec openFile file' = (.ok (), file')) ∧
    ∀ faults, (openFile ⟨file', faults⟩).2.data = file'

section Opening

variable {file file' : QueueFile}

theorem openFile_refused {what : String} {faults : List Bool}
    (h : (openFile ⟨file, faults⟩).1 = .error what) :
    (openFile ⟨file, faults⟩).2.data = file := by
  rcases openFile_cases ⟨file, faults⟩ with ⟨-, -, hdata⟩ | ⟨hok, -⟩
  · exact hdata
  · rw [hok] at h
    exact absurd h (by simp)

theorem exec_of_opened {faults : List Bool} (h : (openFile ⟨file, faults⟩).1 = .ok ()) :
    Sql.exec openFile file = (.ok (), (openFile ⟨file, faults⟩).2.data) := by
  rcases openFile_cases ⟨file, faults⟩ with ⟨what, herr, -⟩ | ⟨-, hexec⟩
  · rw [herr] at h
    exact absurd h (by simp)
  · exact hexec

/-- Opening again changes nothing. -/
theorem openFile_again (h : Sql.exec openFile file = (.ok (), file')) :
    Sql.exec openFile file' = (.ok (), file') ∧
      ∀ faults, (openFile ⟨file', faults⟩).2.data = file' := by
  have hagain : Sql.exec openFile file' = (.ok (), file') := by
    obtain ⟨-, t', hmigrates, rfl⟩ := openFile_exec.mp h
    refine openFile_exec.mpr ⟨?_, t', hmigrates.again, rfl⟩
    exact ⟨Int.zero_le_ofNat 2, le_refl 2⟩
  refine ⟨hagain, fun faults => ?_⟩
  rcases openFile_cases ⟨file', faults⟩ with ⟨-, -, hdata⟩ | ⟨-, hexec⟩
  · exact hdata
  · rw [hagain] at hexec
    exact (Prod.mk.inj hexec).2.symm

/-- The key goes on after the identity, and nothing else is wrong. -/
def QueueFile.LongerKey (file : QueueFile) : Prop :=
  Supported file.userVersion ∧ ∃ t, file.intakeEvents = some t ∧ Usable t ∧
    ∃ name rest, t.primaryKey = identityColumns ++ name :: rest

/-- What is opened is as it should be, unless its key goes on. -/
theorem opens_of_exec (hkey : ¬ file.LongerKey) {faults : List Bool} :
    Opens file (openFile ⟨file, faults⟩).1 (openFile ⟨file, faults⟩).2.data := by
  -- All that an opened file shows comes from the one migration it went through.
  have hopened (h : (openFile ⟨file, faults⟩).1 = .ok ()) :
      Supported file.userVersion ∧ ∃ t', Migrates (file.intakeEvents.getD emptyIntake) t' ∧
        (openFile ⟨file, faults⟩).2.data = file.initialised t' :=
    openFile_exec.mp (exec_of_opened h)
  constructor
  case refused => exact fun what h => openFile_refused h
  case rows =>
    intro h
    obtain ⟨-, t', hmigrates, hdata⟩ := hopened h
    obtain ⟨-, husable⟩ := exists_migrates.mp ⟨t', hmigrates⟩
    refine ⟨t', by rw [hdata]; rfl, ?_⟩
    have hrows : (file.intakeEvents.map FileTable.rows).getD [] =
        (file.intakeEvents.getD emptyIntake).rows := by
      cases file.intakeEvents <;> rfl
    rw [hrows, hmigrates.migrated.rows, List.forall₂_map_right_iff, List.forall₂_same]
    exact fun row hrow => keptRow_migratedRow (husable.valid row hrow)
  case quarantined =>
    intro h
    obtain ⟨-, t', -, hdata⟩ := hopened h
    rw [hdata, QueueFile.initialised]
    cases file.quarantinedEvents <;> rfl
  case current =>
    intro h
    obtain ⟨-, t', -, hdata⟩ := hopened h
    rw [hdata]
    rfl
  case version =>
    intro hversion h
    exact hversion (hopened h).1
  case key =>
    intro t ht hother h
    obtain ⟨hversion, t', hmigrates, -⟩ := hopened h
    rw [ht, Option.getD_some] at hmigrates
    obtain ⟨⟨rest, hrest⟩, husable⟩ := exists_migrates.mp ⟨t', hmigrates⟩
    cases rest with
    | nil => exact hother (by rw [hrest, List.append_nil])
    | cons name rest => exact hkey ⟨hversion, t, ht, husable, name, rest, hrest⟩
  case valid =>
    intro t ht row hrow hinvalid h
    obtain ⟨-, t', hmigrates, -⟩ := hopened h
    rw [ht, Option.getD_some] at hmigrates
    exact (exists_migrates.mp ⟨t', hmigrates⟩).2.valid row hrow hinvalid
  case again => exact fun h => openFile_again (exec_of_opened h)

/-- A key that goes on is accepted. -/
theorem openFile_longerKey (h : file.LongerKey) : (openFile ⟨file, []⟩).1 = .ok () := by
  obtain ⟨hversion, t, ht, husable, name, rest, hkey⟩ := h
  obtain ⟨t', ht'⟩ := exists_migrates.mpr ⟨⟨name :: rest, hkey⟩, husable⟩
  have hexec : Sql.exec openFile file = (.ok (), file.initialised t') := by
    refine openFile_exec.mpr ⟨hversion, t', ?_, rfl⟩
    rw [ht]
    exact ht'
  exact (Prod.mk.inj hexec).1

/-- Opening a file does what it should, whatever fails on the way, if and only if its queue table
has no key that goes on after the three identity columns, or is refused for another reason. The files
are those of `FileTable`: a queue table made by hand with a collation, an affinity or a constraint of
its own, and a file with triggers, views or further indexes, are not among them. -/
theorem open_migrates_iff (file : QueueFile) :
    (∀ faults, Opens file (openFile ⟨file, faults⟩).1 (openFile ⟨file, faults⟩).2.data) ↔
      ¬ file.LongerKey := by
  constructor
  · intro hopens hlonger
    obtain ⟨-, t, ht, -, name, rest, hkey⟩ := id hlonger
    refine (hopens []).key t ht ?_ (openFile_longerKey hlonger)
    rw [hkey]
    exact fun h => by simpa using congrArg List.length h
  · exact fun hkey faults => opens_of_exec hkey

end Opening

/-- The columns of the first version. -/
def firstColumns : List Column := intakeColumns.take 5

theorem longer_keyed :
    ∀ name ∈ identityColumns ++ [gatewayReceivedAt], name ∈ firstColumns.map Column.name := by
  decide

theorem first_distinct : (foldedNames firstColumns).Nodup := by decide

/-- A table of the first version whose key ends with the receipt time. -/
def longerTable : FileTable :=
  .create firstColumns (identityColumns ++ [gatewayReceivedAt]) longer_keyed first_distinct

/-- It is opened. -/
theorem longer_key_opened : ¬ ∀ (file : QueueFile) (faults : List Bool),
    Opens file (openFile ⟨file, faults⟩).1 (openFile ⟨file, faults⟩).2.data := by
  intro hopens
  have husable : Usable longerTable := by
    refine ⟨by decide, by decide, .inr (by decide), .inr (by decide), ?_, List.Pairwise.nil⟩
    exact fun row hrow => absurd hrow List.not_mem_nil
  have hlonger : QueueFile.LongerKey ⟨0, some longerTable, false, none⟩ :=
    ⟨⟨le_refl 0, Int.zero_le_ofNat 2⟩, longerTable, rfl, husable, gatewayReceivedAt, [], rfl⟩
  exact (hopens _ []).key longerTable rfl (by decide) (openFile_longerKey hlonger)

/-! ## The Store's Tables in a File -/

def encodeEvent (event : Telemetry.Event) : Row :=
  [(ascii "device_id", .text event.deviceId), (ascii "boot_id", .text event.bootId),
    (ascii "sequence_number", .integer event.sequenceNumber),
    (mqttPayload, .text event.mqttPayload), (gatewayReceivedAt, .text event.gatewayReceivedAt)]

def encodeState : Store.QueueState → SqlValue
  | .pending => pending
  | .inFlight => inFlight

def encodeQueued (r : Store.QueuedEvent) : Row :=
  encodeEvent r.event ++ [(queueState, encodeState r.state), (attemptCount, .integer r.attemptCount)]

def encodeQuarantined (q : Store.QuarantinedEvent) : Row :=
  encodeEvent q.event ++ [(attemptCount, .integer q.attemptCount),
    (ascii "reason", .text q.reason), (ascii "quarantined_at", .text q.quarantinedAt)]

/-- Rows of different identities have different keys. -/
theorem sameKey_encodeEvent {event event' : Telemetry.Event} (more more' : Row)
    (h : Store.identity event ≠ Store.identity event') :
    Row.sameKey identityColumns (encodeEvent event ++ more) (encodeEvent event' ++ more') = false := by
  rw [Bool.eq_false_iff]
  intro hsame
  simp only [Row.sameKey, Bool.and_eq_true, List.all_eq_true] at hsame
  -- The three key cells hold the identity, whatever columns follow.
  have hcell (event : Telemetry.Event) (more : Row) :
      (encodeEvent event ++ more : Row).cell (ascii "device_id") = .text event.deviceId ∧
      (encodeEvent event ++ more : Row).cell (ascii "boot_id") = .text event.bootId ∧
      (encodeEvent event ++ more : Row).cell (ascii "sequence_number") =
        .integer event.sequenceNumber := by
    refine ⟨rfl, rfl, rfl⟩
  obtain ⟨hd, hb, hs⟩ := hcell event more
  obtain ⟨hd', hb', hs'⟩ := hcell event' more'
  have h₁ := hsame.2 (ascii "device_id") (by decide)
  have h₂ := hsame.2 (ascii "boot_id") (by decide)
  have h₃ := hsame.2 (ascii "sequence_number") (by decide)
  rw [hd, hd'] at h₁
  rw [hb, hb'] at h₂
  rw [hs, hs'] at h₃
  apply h
  rw [Store.identity, Store.identity, eq_of_beq h₁, eq_of_beq h₂, eq_of_beq h₃]

theorem keysDistinct_encode {ρ : Type} {event : ρ → Telemetry.Event} {more : ρ → Row}
    (t : Table fun r : ρ => Store.identity (event r)) :
    KeysDistinct identityColumns (t.rows.map fun r => encodeEvent (event r) ++ more r) := by
  have hkeys := t.keys_nodup
  rw [List.Nodup, List.pairwise_map] at hkeys
  rw [KeysDistinct, List.pairwise_map]
  exact hkeys.imp fun h => sameKey_encodeEvent _ _ h

theorem complete_encodeQueued (rows : List Store.QueuedEvent) :
    ∀ row ∈ rows.map encodeQueued, row.names = intakeColumns.map Column.name := by
  intro row hrow
  obtain ⟨r, -, rfl⟩ := List.mem_map.mp hrow
  rfl

theorem complete_encodeQuarantined (rows : List Store.QuarantinedEvent) :
    ∀ row ∈ rows.map encodeQuarantined, row.names = quarantineColumns.map Column.name := by
  intro row hrow
  obtain ⟨q, -, rfl⟩ := List.mem_map.mp hrow
  rfl

def encodeIntake (t : Store.IntakeTable) : FileTable where
  columns := intakeColumns
  primaryKey := identityColumns
  rows := t.rows.map encodeQueued
  complete := complete_encodeQueued t.rows
  keyed := intake_keyed
  namesDistinct := intake_distinct
  keysDistinct := keysDistinct_encode t

def encodeQuarantine (t : Store.QuarantineTable) : FileTable where
  columns := quarantineColumns
  primaryKey := identityColumns
  rows := t.rows.map encodeQuarantined
  complete := complete_encodeQuarantined t.rows
  keyed := quarantine_keyed
  namesDistinct := quarantine_distinct
  keysDistinct := keysDistinct_encode t

/-- A file of the current version that holds these tables. -/
def encode (t : Store.Tables) : QueueFile where
  userVersion := 2
  intakeEvents := some (encodeIntake t.intakeEvents)
  pendingOrder := true
  quarantinedEvents := some (encodeQuarantine t.quarantinedEvents)

theorem migratedRow_encodeQueued (r : Store.QueuedEvent) :
    migratedRow (encodeQueued r) =
      encodeQueued (if r.state == .inFlight then Store.releaseRow r else r) := by
  have hstate : ensureCell queueState pending (encodeQueued r) = encodeQueued r := rfl
  have hattempt : ensureCell attemptCount (.integer 0) (encodeQueued r) = encodeQueued r := rfl
  rw [migratedRow, hstate, hattempt]
  obtain ⟨event, state, n⟩ := r
  cases state <;> rfl

theorem invalidRow_encodeQueued (r : Store.QueuedEvent) :
    InvalidRow (encodeQueued r) ↔ r.attemptCount < 0 := by
  have hstate : (encodeQueued r).lookup queueState = some (encodeState r.state) := rfl
  have hattempt : (encodeQueued r).lookup attemptCount = some (.integer r.attemptCount) := rfl
  rw [InvalidRow, hstate, hattempt]
  cases r.state <;> simp [encodeState, SqlValue.isNegative]

theorem usable_encodeIntake (t : Store.IntakeTable) :
    Usable (encodeIntake t) ↔ ∀ r ∈ t, 0 ≤ r.attemptCount := by
  have hvalid : (∀ row ∈ (encodeIntake t).rows, ¬ InvalidRow row) ↔ ∀ r ∈ t, 0 ≤ r.attemptCount := by
    rw [encodeIntake, List.forall_mem_map]
    simp only [invalidRow_encodeQueued, not_lt]
    rfl
  rw [← hvalid]
  refine ⟨fun h => h.valid, fun h => ⟨?_, ?_, .inl ?_, .inl ?_, h, ?_⟩⟩
  · exact (by decide : mqttPayload ∈ intakeColumns.map Column.name)
  · exact (by decide : gatewayReceivedAt ∈ intakeColumns.map Column.name)
  · exact (by decide : queueState ∈ intakeColumns.map Column.name)
  · exact (by decide : attemptCount ∈ intakeColumns.map Column.name)
  · have hkey : (identityColumns.filter fun name => name ≠ queueState) = identityColumns := by decide
    rw [show (encodeIntake t).primaryKey = identityColumns from rfl, hkey]
    exact (encodeIntake t).keysDistinct

/-- What a table is migrated to. -/
theorem Migrates.encodeIntake {t : Store.IntakeTable} {t' : FileTable}
    (h : Migrates (encodeIntake t) t') :
    t' = Migration.encodeIntake (t.update (fun r => r.state == .inFlight) Store.releaseRow
      Store.identity_releaseRow) := by
  have hcolumns : t'.columns = intakeColumns := by
    obtain ⟨-, t₁, t₂, h₁, h₂, -, hrecover⟩ := h
    obtain rfl : t₁ = Migration.encodeIntake t := h₁
    obtain rfl : t₂ = Migration.encodeIntake t := h₂
    exact (updateWhere_eq_ok.mp hrecover).2.1
  refine eq_of_parts hcolumns h.migrated.primaryKey ?_
  rw [h.migrated.rows]
  change (t.rows.map encodeQueued).map migratedRow = (t.rows.map _).map encodeQueued
  rw [List.map_map, List.map_map]
  exact List.map_congr_left fun r _ => migratedRow_encodeQueued r

/-- On files of the current version, opening is the operation of the store. -/
theorem openFile_encode (t : Store.Tables) (file' : QueueFile) :
    Sql.exec openFile (encode t) = (.ok (), file') ↔
      ∃ t', Sql.exec Store.openStore t = (.ok (), t') ∧ file' = encode t' := by
  have hopen : Sql.exec Store.openStore t = Sql.exec Store.initializeSchema t := by
    simp only [Store.openStore, Sql.exec, bind, Sql.andThen, Sql.calls_nofault]
  have hget : (encode t).intakeEvents.getD emptyIntake = Migration.encodeIntake t.intakeEvents := rfl
  -- Every table that the store writes migrates, to the recovered one.
  have hkept (t' : FileTable) (ht' : Migrates (Migration.encodeIntake t.intakeEvents) t') :
      (encode t).initialised t' = encode (Store.recoverAll t) := by
    rw [ht'.encodeIntake]
    rfl
  simp only [hopen, Store.initializeSchema_exec, openFile_exec, hget]
  constructor
  · rintro ⟨-, t', ht', rfl⟩
    obtain ⟨-, husable⟩ := exists_migrates.mp ⟨t', ht'⟩
    exact ⟨_, ⟨(usable_encodeIntake _).mp husable, rfl⟩, hkept t' ht'⟩
  · rintro ⟨_, ⟨hvalid, rfl⟩, rfl⟩
    have husable := (usable_encodeIntake t.intakeEvents).mpr hvalid
    obtain ⟨t', ht'⟩ := exists_migrates.mpr ⟨⟨[], rfl⟩, husable⟩
    exact ⟨⟨Int.zero_le_ofNat 2, le_refl 2⟩, t', ht', (hkept t' ht').symm⟩

end EquipmentMonitoring.Migration
